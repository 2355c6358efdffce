import Mathlib.Data.List.Basic
import ValidatorDays.Upsert.Batch

namespace ValidatorDays.Batch

theorem flatten_pieces {α : Type} (size : Nat) (items : List α) :
    (pieces size items).flatten = items := by
  fun_induction pieces size items with
  | case1 => rfl
  | case2 a rest ih => simp only [List.flatten_cons, ih, List.cons_append, List.take_append_drop]

theorem plan_eq_ok {t : Target} {rows : List Row} {batchSize : Nat} {batches : List Batch} :
    plan t rows batchSize = .ok batches ↔ (∀ row ∈ rows, row.length = t.columns.length) ∧
      batches = (pieces (t.clampBatch batchSize - 1) rows).map fun rows => ⟨t, rows⟩ := by
  unfold plan
  cases wrong : rows.find? (·.length ≠ t.columns.length) with
  | none =>
    have wide : ∀ row ∈ rows, row.length = t.columns.length := by simpa using wrong
    exact ⟨fun planned => ⟨wide, (Except.ok.inj planned).symm⟩, fun ⟨_, same⟩ => same ▸ rfl⟩
  | some row =>
    have failed := List.find?_some wrong
    have member := List.mem_of_find?_eq_some wrong
    simp only [decide_eq_true_eq] at failed
    exact ⟨nofun, fun ⟨width, _⟩ => (failed (width row member)).elim⟩

theorem target_of_plan {t : Target} {rows : List Row} {batchSize : Nat} {batches : List Batch}
    (planned : plan t rows batchSize = .ok batches) : ∀ b ∈ batches, b.target = t := by
  obtain ⟨-, rfl⟩ := plan_eq_ok.mp planned
  intro b member
  obtain ⟨piece, -, rfl⟩ := List.mem_map.mp member
  rfl

theorem rows_of_plan {t : Target} {rows : List Row} {batchSize : Nat} {batches : List Batch}
    (planned : plan t rows batchSize = .ok batches) : batches.flatMap Batch.rows = rows := by
  obtain ⟨-, rfl⟩ := plan_eq_ok.mp planned
  rw [List.flatMap_map, List.flatMap_id', flatten_pieces]

theorem rows_sublist_of_plan {t : Target} {rows : List Row} {batchSize : Nat}
    {batches : List Batch} (planned : plan t rows batchSize = .ok batches) :
    ∀ b ∈ batches, b.rows.Sublist rows := by
  intro b member
  rw [← rows_of_plan planned]
  exact List.sublist_flatten_of_mem (List.mem_map_of_mem member)

/-- The rows as the statement has them. Its placeholders give the column `c` of the row `r` the
parameter `r * width + c + 1`, and parameters are counted from one. -/
def tuples (b : Batch) : List Row :=
  (List.range b.rowCount).map fun r =>
    (List.range b.target.columns.length).filterMap fun c =>
      b.values[r * b.target.columns.length + c]?

theorem getElem?_values {width : Nat} {rows : List Row} (wide : ∀ row ∈ rows, row.length = width)
    {r c : Nat} (inside : c < width) (row : Row) (found : rows[r]? = some row) :
    rows.flatten[r * width + c]? = row[c]? := by
  induction rows generalizing r with
  | nil => simp at found
  | cons first rest ih =>
    obtain ⟨firstWide, restWide⟩ := List.forall_mem_cons.mp wide
    cases r with
    | zero =>
      cases found
      rw [List.flatten_cons, List.getElem?_append_left (by omega)]
      simp
    | succ r =>
      have skip : (r + 1) * width + c = first.length + (r * width + c) := by
        rw [firstWide, Nat.succ_mul]
        omega
      rw [List.flatten_cons, skip, List.getElem?_append_right (by omega), Nat.add_sub_cancel_left]
      exact ih restWide found

theorem filterMap_getElem? {α : Type} (items : List α) :
    (List.range items.length).filterMap (fun i => items[i]?) = items := by
  induction items with
  | nil => rfl
  | cons a rest ih =>
    rw [List.length_cons, List.range_succ_eq_map, List.filterMap_cons, List.filterMap_map]
    exact congrArg (a :: ·) ih

theorem tuples_eq_rows {b : Batch}
    (wide : ∀ row ∈ b.rows, row.length = b.target.columns.length) : b.tuples = b.rows := by
  refine List.ext_getElem (by simp [tuples, rowCount]) fun r _ inside => ?_
  have found : b.rows[r]? = some b.rows[r] := List.getElem?_eq_getElem inside
  have width := wide _ (List.getElem_mem inside)
  have same : ∀ c ∈ List.range b.target.columns.length,
      b.values[r * b.target.columns.length + c]? = b.rows[r][c]? := fun c member =>
    getElem?_values wide (List.mem_range.mp member) _ found
  simp only [tuples, List.getElem_map, List.getElem_range, List.filterMap_congr same]
  rw [← width, filterMap_getElem?]

end ValidatorDays.Batch
