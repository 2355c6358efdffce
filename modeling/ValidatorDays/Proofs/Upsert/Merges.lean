import Mathlib.Data.Finset.Image
import Mathlib.Logic.Function.Basic
import ValidatorDays.Proofs.Upsert.Batches

namespace ValidatorDays

deriving instance DecidableEq for Decimal
deriving instance DecidableEq for SqlValue

/-- How tables keep values: what a column makes of a parameter, and what it holds in a new row that
was given nothing for it. -/
structure Layout (Cell : Type) where
  take : (table column : String) → SqlValue → Cell
  blank : (table column : String) → Cell

/-- Columns that hold parameters as they are, and nothing where nothing was given. -/
def Layout.plain : Layout (Option SqlValue) := ⟨fun _ _ => some, fun _ _ => none⟩

/-- The table of a row and what its key columns hold. No two rows have both in common. -/
structure Address (Cell : Type) where
  table : String
  key : Finset (String × Cell)
  deriving DecidableEq

abbrev Stored (Cell : Type) := String → Cell

abbrev Database (Cell : Type) := Address Cell → Option (Stored Cell)

def Target.given (t : Target) (row : Row) (column : String) : Option SqlValue :=
  (t.columns.zip row).lookup column

theorem Target.given_eq_none {t : Target} {row : Row} {column : String}
    (absent : column ∉ t.columns) : t.given row column = none := by
  refine List.lookup_eq_none_iff.mpr fun pair member => ?_
  obtain ⟨name, value⟩ := pair
  have inside : name ∈ t.columns := (List.of_mem_zip member).1
  have other : column ≠ name := fun same => absent (same ▸ inside)
  simpa using other

theorem Target.mem_ownColumns {t : Target} {column : String} :
    column ∈ t.ownColumns ↔ column ∈ t.columns ∧ column ∉ t.key := by
  simp [ownColumns]

def Target.Apart (t u : Target) : Prop := ∀ column ∈ t.ownColumns, column ∉ u.ownColumns

instance (t u : Target) : Decidable (t.Apart u) :=
  inferInstanceAs (Decidable (∀ column ∈ t.ownColumns, column ∉ u.ownColumns))

namespace Layout

variable {Cell : Type} (l : Layout Cell) (t : Target)

def inserted (row : Row) : Stored Cell := fun column =>
  match t.given row column with
  | some value => l.take t.table column value
  | none => l.blank t.table column

/-- A row that is there already gets the columns of the target and keeps all others. -/
def assign (row : Row) (before : Option (Stored Cell)) : Stored Cell := fun column =>
  if column ∈ t.ownColumns then l.inserted t row column
  else before.getD (l.inserted t row) column

theorem assign_own {row : Row} {before : Option (Stored Cell)} {column : String}
    (own : column ∈ t.ownColumns) : l.assign t row before column = l.inserted t row column :=
  if_pos own

theorem assign_other {row : Row} {before : Option (Stored Cell)} {column : String}
    (other : column ∉ t.ownColumns) :
    l.assign t row before column = before.getD (l.inserted t row) column := if_neg other

theorem assign_again (row : Row) (before : Option (Stored Cell)) :
    l.assign t row (some (l.assign t row before)) = l.assign t row before := by
  funext column
  by_cases own : column ∈ t.ownColumns
  · rw [assign_own l t own, assign_own l t own]
  · rw [assign_other l t own, Option.getD_some]

variable [DecidableEq Cell]

def address (row : Row) : Address Cell :=
  ⟨t.table, (t.key.map fun column => (column, l.inserted t row column)).toFinset⟩

theorem inserted_key {u : Target} {row other : Row} (same : l.address t row = l.address u other)
    {column : String} (key : column ∈ t.key) :
    l.inserted t row column = l.inserted u other column := by
  have there : (column, l.inserted t row column) ∈ (l.address u other).key := by
    rw [← same]
    exact List.mem_toFinset.mpr (List.mem_map_of_mem key)
  obtain ⟨_, -, found⟩ := List.mem_map.mp (List.mem_toFinset.mp there)
  obtain ⟨rfl, value⟩ := Prod.mk.inj found
  exact value.symm

theorem inserted_shared {u : Target} {row other : Row}
    (same : l.address t row = l.address u other) {column : String}
    (notOwn : column ∉ t.ownColumns) (notOwnToo : column ∉ u.ownColumns) :
    l.inserted t row column = l.inserted u other column := by
  by_cases key : column ∈ t.key
  · exact l.inserted_key t same key
  by_cases keyToo : column ∈ u.key
  · exact (l.inserted_key u same.symm keyToo).symm
  have absent : column ∉ t.columns := fun inside => notOwn (Target.mem_ownColumns.mpr ⟨inside, key⟩)
  have absentToo : column ∉ u.columns :=
    fun inside => notOwnToo (Target.mem_ownColumns.mpr ⟨inside, keyToo⟩)
  have table : t.table = u.table := congrArg Address.table same
  simp only [inserted, Target.given_eq_none absent, Target.given_eq_none absentToo, table]

def merge (db : Database Cell) (row : Row) : Database Cell :=
  Function.update db (l.address t row) (some (l.assign t row (db (l.address t row))))

def execute (db : Database Cell) (b : Batch) : Database Cell := b.tuples.foldl (l.merge b.target) db

def executeAll (db : Database Cell) (batches : List Batch) : Database Cell :=
  batches.foldl l.execute db

theorem merge_same (db : Database Cell) (row : Row) :
    l.merge t db row (l.address t row) = some (l.assign t row (db (l.address t row))) :=
  Function.update_self ..

theorem merge_other (db : Database Cell) {row : Row} {a : Address Cell}
    (other : a ≠ l.address t row) : l.merge t db row a = db a := Function.update_of_ne other ..

theorem foldl_merge_other {rows : List Row} {a : Address Cell}
    (other : ∀ row ∈ rows, a ≠ l.address t row) (db : Database Cell) :
    rows.foldl (l.merge t) db a = db a := by
  induction rows generalizing db with
  | nil => rfl
  | cons row rest ih =>
    obtain ⟨first, others⟩ := List.forall_mem_cons.mp other
    exact (ih others _).trans (l.merge_other t db first)

theorem foldl_merge_same {rows : List Row} {row : Row} (member : row ∈ rows)
    (only : ∀ other ∈ rows, l.address t other = l.address t row → other = row)
    (db : Database Cell) : rows.foldl (l.merge t) db (l.address t row) =
      some (l.assign t row (db (l.address t row))) := by
  induction rows generalizing db with
  | nil => cases member
  | cons first rest ih =>
    obtain ⟨isRow, onlyRest⟩ := List.forall_mem_cons.mp only
    rw [List.foldl_cons]
    by_cases later : row ∈ rest
    · rw [ih later onlyRest]
      by_cases same : l.address t row = l.address t first
      · cases isRow same.symm
        rw [merge_same, assign_again]
      · rw [merge_other l t db same]
    · cases (List.mem_cons.mp member).resolve_right later
      have untouched : ∀ other ∈ rest, l.address t row ≠ l.address t other :=
        fun other inside same => later (onlyRest other inside same.symm ▸ inside)
      rw [foldl_merge_other l t untouched, merge_same]

/-- `after` is `before` with the columns of the rows assigned. A row that was not there is there,
and nothing else has changed. -/
structure Assigned (rows : List Row) (before after : Database Cell) : Prop where
  own : ∀ row ∈ rows, ∃ stored, after (l.address t row) = some stored ∧
    (∀ column ∈ t.ownColumns, stored column = l.inserted t row column) ∧
    ∀ column ∉ t.ownColumns,
      stored column = (before (l.address t row)).getD (l.inserted t row) column
  others : ∀ a, (∀ row ∈ rows, a ≠ l.address t row) → after a = before a

theorem Assigned.unique {rows : List Row} {before after after' : Database Cell}
    (first : Assigned l t rows before after) (second : Assigned l t rows before after') :
    after = after' := by
  funext a
  by_cases meant : ∃ row ∈ rows, a = l.address t row
  · obtain ⟨row, member, rfl⟩ := meant
    obtain ⟨stored, found, own, kept⟩ := first.own row member
    obtain ⟨stored', found', own', kept'⟩ := second.own row member
    rw [found, found']
    congr 1
    funext column
    by_cases mine : column ∈ t.ownColumns
    · rw [own column mine, own' column mine]
    · rw [kept column mine, kept' column mine]
  · have untouched : ∀ row ∈ rows, a ≠ l.address t row :=
      fun row member same => meant ⟨row, member, same⟩
    rw [first.others a untouched, second.others a untouched]

theorem assigned_foldl_merge {rows merged : List Row} (distinct : (rows.map (l.address t)).Nodup)
    (same : ∀ row, row ∈ merged ↔ row ∈ rows) (before : Database Cell) :
    Assigned l t rows before (merged.foldl (l.merge t) before) where
  own := by
    intro row member
    have only : ∀ other ∈ merged, l.address t other = l.address t row → other = row :=
      fun other inside => List.inj_on_of_nodup_map distinct ((same other).mp inside) member
    exact ⟨_, l.foldl_merge_same t ((same row).mpr member) only before,
      fun column own => l.assign_own t own, fun column other => l.assign_other t other⟩
  others := by
    intro a other
    exact l.foldl_merge_other t (fun row member => other row ((same row).mp member)) before

theorem executeAll_eq {batches : List Batch} (targets : ∀ b ∈ batches, b.target = t)
    (wide : ∀ b ∈ batches, ∀ row ∈ b.rows, row.length = t.columns.length) (db : Database Cell) :
    l.executeAll db batches = (batches.flatMap Batch.rows).foldl (l.merge t) db := by
  induction batches generalizing db with
  | nil => rfl
  | cons b rest ih =>
    obtain ⟨rfl, restTargets⟩ := List.forall_mem_cons.mp targets
    obtain ⟨firstWide, restWide⟩ := List.forall_mem_cons.mp wide
    have first : l.execute db b = b.rows.foldl (l.merge b.target) db := by
      rw [execute, Batch.tuples_eq_rows firstWide]
    rw [executeAll, List.foldl_cons, first, List.flatMap_cons, List.foldl_append]
    exact ih restTargets restWide _

/-- The batches of one plan, each of them executed, in whatever order and however often. -/
theorem assigned_executeAll {rows : List Row} {batchSize : Nat} {planned executed : List Batch}
    (plan : Batch.plan t rows batchSize = .ok planned)
    (distinct : (rows.map (l.address t)).Nodup) (all : ∀ b, b ∈ executed ↔ b ∈ planned)
    (before : Database Cell) : Assigned l t rows before (l.executeAll before executed) := by
  have targets : ∀ b ∈ executed, b.target = t :=
    fun b member => Batch.target_of_plan plan b ((all b).mp member)
  have same : ∀ row, row ∈ executed.flatMap Batch.rows ↔ row ∈ rows := by
    intro row
    rw [← Batch.rows_of_plan plan]
    simp only [List.mem_flatMap, all]
  have wide : ∀ b ∈ executed, ∀ row ∈ b.rows, row.length = t.columns.length := by
    intro b member row inside
    have given := (same row).mp (List.mem_flatMap.mpr ⟨b, member, inside⟩)
    exact (Batch.plan_eq_ok.mp plan).1 row given
  rw [l.executeAll_eq t targets wide]
  exact l.assigned_foldl_merge t distinct same before

theorem merge_comm {u : Target} (apart : t.Apart u) (row other : Row) (db : Database Cell) :
    l.merge u (l.merge t db row) other = l.merge t (l.merge u db other) row := by
  by_cases same : l.address t row = l.address u other
  · have values : l.assign u other (some (l.assign t row (db (l.address t row)))) =
        l.assign t row (some (l.assign u other (db (l.address t row)))) := by
      funext column
      by_cases own : column ∈ t.ownColumns
      · rw [assign_own l t own, assign_other l u (apart column own), Option.getD_some,
          assign_own l t own]
      by_cases ownToo : column ∈ u.ownColumns
      · rw [assign_own l u ownToo, assign_other l t own, Option.getD_some, assign_own l u ownToo]
      · rw [assign_other l u ownToo, assign_other l t own, Option.getD_some, Option.getD_some,
          assign_other l t own, assign_other l u ownToo]
        cases db (l.address t row) with
        | none => exact l.inserted_shared t same own ownToo
        | some stored => rfl
    simp only [merge, ← same, Function.update_self, Function.update_idem, values]
  · simp only [merge, Function.update_of_ne same, Function.update_of_ne (Ne.symm same)]
    exact Function.update_comm same ..

theorem execute_comm {a b : Batch} (apart : a.target.Apart b.target) (db : Database Cell) :
    l.execute (l.execute db a) b = l.execute (l.execute db b) a := by
  have step : ∀ (row : Row) (rows : List Row) (db : Database Cell),
      l.merge b.target (rows.foldl (l.merge a.target) db) row =
        rows.foldl (l.merge a.target) (l.merge b.target db row) := by
    intro row rows
    induction rows with
    | nil => exact fun _ => rfl
    | cons first rest ih =>
      intro db
      rw [List.foldl_cons, List.foldl_cons, ih, l.merge_comm a.target apart]
  unfold execute
  generalize b.tuples = rows
  induction rows generalizing db with
  | nil => rfl
  | cons first rest ih => rw [List.foldl_cons, List.foldl_cons, step, ih]

end Layout
end ValidatorDays
