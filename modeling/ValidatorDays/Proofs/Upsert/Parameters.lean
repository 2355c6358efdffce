import Mathlib.Data.List.Basic
import ValidatorDays.Proofs.Upsert.Reading
import ValidatorDays.Stage.Indexed
/-! Which parameter of a planned statement is bound to which value. The values of the batches are
those of the rows, the parameters of each statement are numbered as the values lie in its batch, and
no statement has more than it may take. -/
namespace ValidatorDays

namespace Sql

theorem numbers_listed (items : List (List Token)) :
    (listed items).filterMap Token.number? = items.flatMap (List.filterMap Token.number?) := by
  induction items with
  | nil => rfl
  | cons first rest ih =>
    cases rest with
    | nil => simp [listed]
    | cons second others =>
      rw [listed, List.intercalate_cons_cons, List.append_assoc, List.filterMap_append,
        List.flatMap_cons, ← ih]
      rfl

theorem numbers_enclosed (inner : List Token) :
    (enclosed inner).filterMap Token.number? = inner.filterMap Token.number? := by
  simp [enclosed, List.filterMap_cons]

theorem numbers_group (numbers : List Nat) :
    (Merge.group numbers).filterMap Token.number? = numbers := by
  rw [Merge.group, numbers_enclosed, numbers_listed, List.flatMap_map]
  exact List.flatMap_singleton' numbers

theorem numbers_tokens (m : Merge) : m.tokens.filterMap Token.number? =
    m.table.filterMap Token.number? ++ (m.columns.flatMap (List.filterMap Token.number?) ++
      (m.groups.flatten ++ (m.key.flatMap (List.filterMap Token.number?) ++
        m.action.filterMap Token.number?))) := by
  have groups : (m.groups.map Merge.group).flatMap (List.filterMap Token.number?) =
      m.groups.flatten := by
    rw [List.flatMap_map, List.flatMap_congr fun numbers _ => numbers_group numbers]
    exact List.flatMap_id'
  simp [Merge.tokens, List.filterMap_cons, numbers_enclosed, numbers_listed, groups]

theorem numbers_action (m : Merge) : m.action.filterMap Token.number? =
    m.updated.flatMap fun c => c.filterMap Token.number? ++ c.filterMap Token.number? := by
  unfold Merge.action
  cases m.updated with
  | nil => simp
  | cons first others =>
    simp only [List.filterMap_cons, Token.number?_word, numbers_listed, List.flatMap_map]
    refine List.flatMap_congr fun c _ => ?_
    simp [Merge.update, List.filterMap_cons]

end Sql

namespace Target

theorem flatten_groups (t : Target) (rowCount : Nat) :
    (t.groups rowCount).flatten = List.range' 1 (rowCount * t.columns.length) := by
  induction rowCount with
  | zero => simp [groups]
  | succ n ih =>
    have last : t.groups (n + 1) = t.groups n ++
        [List.range' (1 + n * t.columns.length) t.columns.length] := by
      rw [groups, List.range_succ, List.map_append, groups, List.map_singleton,
        List.range'_eq_map_range]
      congr 3
      funext c
      omega
    rw [last, List.flatten_append, ih, List.flatten_singleton, Nat.succ_mul,
      List.range'_append_1]

/-- The parameters of a statement are numbered from one, in the order of the text. Other parameters
are only where a name holds one. -/
theorem parameters_sql (t : Target) (rowCount : Nat) : Sql.parameters (t.sql rowCount) =
    Sql.parameters t.table ++ (t.columns.flatMap Sql.parameters ++
      (List.range' 1 (rowCount * t.columns.length) ++ (t.key.flatMap Sql.parameters ++
        t.ownColumns.flatMap fun c => Sql.parameters c ++ Sql.parameters c))) := by
  rw [Sql.parameters, read_sql, Sql.numbers_tokens, Sql.numbers_action]
  simp only [statement, List.flatMap_map, flatten_groups]
  rfl

theorem maxBatch_mul_le {t : Target} (inLimit : t.columns.length ≤ parameterLimit) :
    t.maxBatch * t.columns.length ≤ parameterLimit := by
  rcases Nat.eq_zero_or_pos t.columns.length with zero | positive
  · rw [zero, Nat.mul_zero]
    exact Nat.zero_le _
  · have rows : parameterLimit / t.columns.length * t.columns.length ≤ parameterLimit :=
      Nat.div_mul_le_self ..
    rw [maxBatch, Nat.max_eq_left positive, ← Nat.mul_max_mul_right, Nat.one_mul]
    exact Nat.max_le.mpr ⟨rows, inLimit⟩

theorem clampBatch_pos (t : Target) (batchSize : Nat) : 0 < t.clampBatch batchSize := by
  simp only [clampBatch, maxBatch]
  omega

theorem clampBatch_le (t : Target) (batchSize : Nat) : t.clampBatch batchSize ≤ t.maxBatch :=
  Nat.min_le_right ..

theorem conflictAction_eq_iff (t : Target) :
    t.conflictAction = "DO NOTHING" ↔ t.ownColumns = [] := by
  unfold conflictAction
  cases t.ownColumns with
  | nil => simp
  | cons first others =>
    refine ⟨fun same => ?_, nofun⟩
    have letters := congrArg (fun text => text.toList[3]?) same
    simp at letters

end Target

namespace Batch

theorem length_pieces {α : Type} (size : Nat) (items : List α) :
    (pieces size items).length = (items.length + size) / (size + 1) := by
  fun_induction pieces size items with
  | case1 => simp [Nat.div_eq_of_lt]
  | case2 a rest ih =>
    have step : (rest.length + 1 + size) / (size + 1) = rest.length / (size + 1) + 1 := by
      rw [Nat.add_assoc, Nat.add_comm 1 size, Nat.add_div_right _ (Nat.succ_pos size)]
    have fewer : (rest.length - size + size) / (size + 1) = rest.length / (size + 1) := by
      by_cases more : size ≤ rest.length
      · rw [Nat.sub_add_cancel more]
      · rw [Nat.div_eq_of_lt (by omega), Nat.div_eq_of_lt (by omega)]
    rw [List.length_cons, ih, List.length_drop, List.length_cons, step, fewer]

theorem length_piece {α : Type} (size : Nat) (items : List α) :
    ∀ piece ∈ pieces size items, 0 < piece.length ∧ piece.length ≤ size + 1 := by
  fun_induction pieces size items with
  | case1 => exact List.forall_mem_nil _
  | case2 a rest ih =>
    refine List.forall_mem_cons.mpr ⟨?_, ih⟩
    rw [List.length_cons, List.length_take]
    omega

theorem length_piece_full {α : Type} (size : Nat) (items : List α) :
    ∀ piece ∈ (pieces size items).dropLast, piece.length = size + 1 := by
  fun_induction pieces size items with
  | case1 => exact List.forall_mem_nil _
  | case2 a rest ih =>
    cases others : pieces size (rest.drop size) with
    | nil => exact List.forall_mem_nil _
    | cons next more =>
      have left : size < rest.length := by
        by_contra short
        rw [List.drop_eq_nil_of_le (Nat.not_lt.mp short), pieces] at others
        cases others
      rw [List.dropLast_cons_of_ne_nil (List.cons_ne_nil _ _), ← others]
      refine List.forall_mem_cons.mpr ⟨?_, ih⟩
      rw [List.length_cons, List.length_take, Nat.min_eq_left (Nat.le_of_lt left)]

theorem plan_eq_error {t : Target} {rows : List Row} {batchSize : Nat} :
    (∃ e, plan t rows batchSize = .error e) ↔ ∃ row ∈ rows, row.length ≠ t.columns.length := by
  cases planned : plan t rows batchSize with
  | ok batches =>
    have wide := (plan_eq_ok.mp planned).1
    exact ⟨nofun, fun ⟨row, member, wrong⟩ => absurd (wide row member) wrong⟩
  | error e =>
    refine ⟨fun _ => ?_, fun _ => ⟨e, rfl⟩⟩
    by_contra fine
    simp only [not_exists, not_and, not_not] at fine
    cases planned.symm.trans (plan_eq_ok.mpr ⟨fine, rfl⟩)

structure Numbered (b : Batch) : Prop where
  whole : b.values.length = b.rowCount * b.target.columns.length
  fits : b.values.length ≤ Target.parameterLimit
  reads : Sql.read b.sql = (b.target.statement b.rowCount).tokens
  action : b.target.conflictAction = "DO NOTHING" ↔ b.target.ownColumns = []
  inOrder : Sql.parameters b.sql = Sql.parameters b.target.table ++
    (b.target.columns.flatMap Sql.parameters ++ (List.range' 1 b.values.length ++
      (b.target.key.flatMap Sql.parameters ++
        b.target.ownColumns.flatMap fun c => Sql.parameters c ++ Sql.parameters c)))
  binds : ∀ r row, b.rows[r]? = some row → ∀ c < b.target.columns.length,
    ∃ numbers value, (b.target.groups b.rowCount)[r]? = some numbers ∧
      numbers.length = b.target.columns.length ∧
      numbers[c]? = some (r * b.target.columns.length + c + 1) ∧
      b.values[r * b.target.columns.length + c]? = some value ∧ row[c]? = some value

theorem length_values {b : Batch}
    (wide : ∀ row ∈ b.rows, row.length = b.target.columns.length) :
    b.values.length = b.rowCount * b.target.columns.length := by
  rw [values, List.length_flatten, List.map_congr_left wide, List.map_const',
    List.sum_replicate_nat]
  rfl

theorem numbered {b : Batch} (wide : ∀ row ∈ b.rows, row.length = b.target.columns.length)
    (inLimit : b.target.columns.length ≤ Target.parameterLimit)
    (fits : b.rowCount ≤ b.target.maxBatch) : b.Numbered where
  whole := length_values wide
  fits := by
    rw [length_values wide]
    exact Nat.le_trans (Nat.mul_le_mul_right _ fits) (Target.maxBatch_mul_le inLimit)
  reads := b.target.read_sql b.rowCount
  action := b.target.conflictAction_eq_iff
  inOrder := by
    rw [length_values wide]
    exact b.target.parameters_sql b.rowCount
  binds := by
    intro r row found c inside
    have width := wide row (List.mem_of_getElem? found)
    have place : r < b.rowCount := (List.getElem?_eq_some_iff.mp found).1
    have there : row[c]? = some (row.get ⟨c, width ▸ inside⟩) := List.getElem?_eq_getElem _
    have bound := getElem?_values wide inside row found
    refine ⟨(List.range b.target.columns.length).map fun c => r * b.target.columns.length + c + 1,
      row.get ⟨c, width ▸ inside⟩, ?_, ?_, ?_, bound.trans there, there⟩
    · rw [Target.groups, List.getElem?_map, List.getElem?_range place]
      rfl
    · rw [List.length_map, List.length_range]
    · rw [List.getElem?_map, List.getElem?_range inside]
      rfl

theorem Numbered.plain {b : Batch} (numbered : b.Numbered)
    (plain : ∀ name ∈ b.target.table :: (b.target.columns ++ b.target.key),
      Sql.parameters name = []) : Sql.parameters b.sql = List.range' 1 b.values.length := by
  obtain ⟨table, others⟩ := List.forall_mem_cons.mp plain
  obtain ⟨columns, key⟩ := List.forall_mem_append.mp others
  have own : ∀ c ∈ b.target.ownColumns, Sql.parameters c ++ Sql.parameters c = [] := by
    intro c member
    rw [columns c (List.mem_of_mem_filter member)]
    rfl
  rw [numbered.inOrder, table, List.flatMap_eq_nil_iff.mpr columns, List.flatMap_eq_nil_iff.mpr key,
    List.flatMap_eq_nil_iff.mpr own]
  simp

/-- Rows are planned just if all of them are as wide as the table. Then the batches hold the values
of the rows in order, they are full but for the last, and none is empty. The text of each, read from
left to right, has a parameter for each value, row by row, and no others but those in the names. -/
theorem plan_numbered (t : Target) (inLimit : t.columns.length ≤ Target.parameterLimit)
    (rows : List Row) (batchSize : Nat) :
    ((∃ e, plan t rows batchSize = .error e) ↔ ∃ row ∈ rows, row.length ≠ t.columns.length) ∧
    ∀ batches, plan t rows batchSize = .ok batches →
      batches.flatMap values = rows.flatten ∧
      batches.length = (rows.length + (t.clampBatch batchSize - 1)) / t.clampBatch batchSize ∧
      (∀ b ∈ batches.dropLast, b.rowCount = t.clampBatch batchSize) ∧
      ∀ b ∈ batches, b.target = t ∧ 0 < b.rowCount ∧ b.rowCount ≤ t.clampBatch batchSize ∧
        b.Numbered ∧ ((∀ name ∈ t.table :: (t.columns ++ t.key), Sql.parameters name = []) →
          Sql.parameters b.sql = List.range' 1 b.values.length) := by
  refine ⟨plan_eq_error, fun batches planned => ?_⟩
  obtain ⟨wide, rfl⟩ := plan_eq_ok.mp planned
  have size : t.clampBatch batchSize - 1 + 1 = t.clampBatch batchSize :=
    Nat.sub_add_cancel (t.clampBatch_pos batchSize)
  refine ⟨?_, ?_, ?_, ?_⟩
  · have values : ∀ rows : List Row, (⟨t, rows⟩ : Batch).values = rows.flatten := fun _ => rfl
    rw [List.flatMap_map, List.flatMap_def, ← flatten_pieces (t.clampBatch batchSize - 1) rows,
      List.flatten_flatten]
    simp only [values]
    rw [flatten_pieces]
  · rw [List.length_map, length_pieces, size]
  · rw [← List.map_dropLast]
    intro b member
    obtain ⟨piece, inside, rfl⟩ := List.mem_map.mp member
    exact (length_piece_full _ rows piece inside).trans size
  · intro b member
    obtain ⟨piece, inside, rfl⟩ := List.mem_map.mp member
    obtain ⟨nonempty, atMost⟩ := length_piece _ rows piece inside
    rw [size] at atMost
    have rowsWide : ∀ row ∈ piece, row.length = t.columns.length := by
      intro row found
      apply wide
      rw [← flatten_pieces (t.clampBatch batchSize - 1) rows]
      exact List.mem_flatten_of_mem inside found
    have laid : (⟨t, piece⟩ : Batch).Numbered :=
      numbered rowsWide inLimit (Nat.le_trans atMost (t.clampBatch_le batchSize))
    exact ⟨rfl, nonempty, atMost, laid, laid.plain⟩

def fiveDuties : List Row := (List.range 5).map fun i => SyncDuties.row ⟨1⟩ ⟨i, 8, 0, 0⟩

/-- Five rows in batches of two. The last of the three batches has the fifth row alone. -/
theorem plan_numbered_five : SyncDuties.target.columns.length ≤ Target.parameterLimit ∧
    ∃ batches, plan SyncDuties.target fiveDuties 2 = .ok batches ∧
      batches.map rowCount = [2, 2, 1] ∧ ∀ b ∈ batches, b.Numbered ∧
        Sql.parameters b.sql = List.range' 1 b.values.length := by
  have inLimit : SyncDuties.target.columns.length ≤ Target.parameterLimit := by decide
  obtain ⟨-, holds⟩ := plan_numbered SyncDuties.target inLimit fiveDuties 2
  obtain ⟨batches, planned⟩ : ∃ batches, plan SyncDuties.target fiveDuties 2 = .ok batches :=
    ⟨_, plan_eq_ok.mpr ⟨by decide, rfl⟩⟩
  obtain ⟨-, -, -, each⟩ := holds batches planned
  refine ⟨inLimit, batches, planned, ?_, fun b member => ?_⟩
  · obtain ⟨-, rfl⟩ := plan_eq_ok.mp planned
    have size : SyncDuties.target.clampBatch 2 = 2 := by decide
    simp [size, pieces, fiveDuties, SyncDuties.row, List.range_succ, rowCount]
  · obtain ⟨-, -, -, numbered, plain⟩ := each b member
    exact ⟨numbered, plain (by decide)⟩

end Batch
end ValidatorDays
