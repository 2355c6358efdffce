import ValidatorDays.Text.Integer

namespace ValidatorDays

abbrev BlockNumber := Int
abbrev BlockHash := String

def mergeBlock : BlockNumber := 15537394

structure BlockRange where
  first : BlockNumber
  last : BlockNumber
  deriving DecidableEq, Repr

namespace BlockRange

def make (first last : BlockNumber) : Checked BlockRange :=
  if last < first then .error .negativeBlockRange else .ok ⟨first, last⟩

def text (r : BlockRange) : String := intText r.first ++ "-" ++ intText r.last

def count (r : BlockRange) : Checked Int := do
  Bounds.int64.check ((← Bounds.int64.check (r.last - r.first)) + 1)

def chunksFrom (first : Int) (size : Nat) (high : Int) :
    Checked (List BlockRange) :=
  if first ≤ high then do
    let _ ← Bounds.int64.check (high - (size + 1))
    let _ ← Bounds.int64.check (max (high - size) first - 1)
    return ⟨max (high - size) first, high⟩ ::
      (← chunksFrom first size (max (high - size) first - 1))
  else return []
termination_by (high + 1 - first).toNat

/-- Consecutive chunks of at most `size` blocks, highest first, at least one block each. -/
def descending (r : BlockRange) (size : Int) : Checked (List BlockRange) := do
  Pieces.reserve ((← r.count) / max size 1)
  chunksFrom r.first (max size 1 - 1).toNat r.last

end BlockRange
end ValidatorDays
