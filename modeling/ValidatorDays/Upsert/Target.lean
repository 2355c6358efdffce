import ValidatorDays.Text.Integer
/-! Where rows are merged: a table, the columns that tell its rows apart, and the columns
a writer owns. Columns of other writers are never touched. -/
namespace ValidatorDays

structure Target where
  table : String
  key : List String
  columns : List String
  deriving DecidableEq, Repr

namespace Target

/-- No statement takes more parameters. -/
def parameterLimit : Nat := 65535

/-- The most rows that fit a statement; one row is always tried. -/
def maxBatch (t : Target) : Nat := max (parameterLimit / max t.columns.length 1) 1

def clampBatch (t : Target) (batchSize : Nat) : Nat := min (max batchSize 1) t.maxBatch

def ownColumns (t : Target) : List String := t.columns.filter fun c => !t.key.contains c

def placeholder (n : Nat) : String := "$" ++ intText n

def placeholders (width row : Nat) : String :=
  "(" ++ ", ".intercalate ((List.range width).map fun c => placeholder (row * width + c + 1)) ++ ")"

def conflictAction (t : Target) : String :=
  match t.ownColumns with
  | [] => "DO NOTHING"
  | own => "DO UPDATE SET " ++ ", ".intercalate (own.map fun c => c ++ " = excluded." ++ c)

def sql (t : Target) (rowCount : Nat) : String :=
  "INSERT INTO " ++ t.table ++ " (" ++ ", ".intercalate t.columns ++ ") VALUES " ++
    ", ".intercalate ((List.range rowCount).map (placeholders t.columns.length)) ++
    " ON CONFLICT (" ++ ", ".intercalate t.key ++ ") " ++ t.conflictAction

end Target
end ValidatorDays
