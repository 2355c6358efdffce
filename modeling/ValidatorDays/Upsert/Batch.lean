import ValidatorDays.Failure
import ValidatorDays.Upsert.Target
import ValidatorDays.Upsert.Value
/-! Rows cut into batches that fit a statement each. -/
namespace ValidatorDays

structure Batch where
  target : Target
  rows : List Row

namespace Batch

def rowCount (b : Batch) : Nat := b.rows.length
def values (b : Batch) : List SqlValue := b.rows.flatten
def sql (b : Batch) : String := b.target.sql b.rowCount

def pieces {α : Type} (size : Nat) : List α → List (List α)
  | [] => []
  | a :: rest => (a :: rest.take size) :: pieces size (rest.drop size)
termination_by items => items.length
decreasing_by simp only [List.length_drop, List.length_cons]; omega

def wrongWidth (t : Target) (row : Row) : StageError :=
  .unexpectedValue "row width" (intText row.length)
    (t.table ++ " expects " ++ intText t.columns.length ++ " columns")

/-- The batches in which the rows are written. A row of the wrong width stops them all. -/
def plan (t : Target) (rows : List Row) (batchSize : Nat) : Except StageError (List Batch) :=
  match rows.find? (·.length ≠ t.columns.length) with
  | some row => .error (wrongWidth t row)
  | none => .ok ((pieces (t.clampBatch batchSize - 1) rows).map fun rows => ⟨t, rows⟩)

end Batch
end ValidatorDays
