import ValidatorDays.Chain.Slot
/-! Ranges of epochs, both ends included, and the slots they cover. -/
namespace ValidatorDays

structure EpochRange where
  first : Epoch
  last : Epoch
  deriving DecidableEq, Repr

namespace EpochRange

instance : Membership Epoch EpochRange := ⟨fun r e => r.first ≤ e ∧ e ≤ r.last⟩

instance (r : EpochRange) (e : Epoch) : Decidable (e ∈ r) :=
  inferInstanceAs (Decidable (r.first ≤ e ∧ e ≤ r.last))

def make (first last : Epoch) : Checked EpochRange :=
  if last < first then .error (.negativeEpochRange first.number last.number) else .ok ⟨first, last⟩

def text (r : EpochRange) : String := r.first.text ++ "-" ++ r.last.text

def length (r : EpochRange) : Checked Int := do
  Bounds.int64.check ((← Bounds.int64.check (r.last.number - r.first.number)) + 1)

/-- Money moves one epoch before the balance shows it. One epoch back, but never below
genesis, a range lines up with the balances of the range it came from. -/
def shiftedBack (r : EpochRange) : Checked EpochRange := do
  let first := max (← Bounds.int64.check (r.first.number - 1)) 0
  let last := max (← Bounds.int64.check (r.last.number - 1)) first
  return ⟨⟨first⟩, ⟨last⟩⟩

def piecesFrom (last : Int) (width : Nat) (first : Int) : Checked (List EpochRange) :=
  if first ≤ last then do
    let _ ← Bounds.int64.check (first + (width + 1))
    let _ ← Bounds.int64.check (min (first + width) last + 1)
    return ⟨⟨first⟩, ⟨min (first + width) last⟩⟩ ::
      (← piecesFrom last width (min (first + width) last + 1))
  else return []
termination_by (last + 1 - first).toNat

/-- Consecutive pieces of at most `width` epochs, at least one each. -/
def split (r : EpochRange) (width : Int) : Checked (List EpochRange) := do
  Pieces.reserve ((← r.length) / max width 1)
  piecesFrom r.last.number (max width 1 - 1).toNat r.first.number

/-- The slots of the range: the first one, and the first one after it. -/
def slots (r : EpochRange) : Checked (Slot × Slot) := do
  let first ← r.first.firstSlot
  let stop ← (← r.last.plus 1).firstSlot
  return (first, stop)

end EpochRange
end ValidatorDays
