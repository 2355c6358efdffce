import ValidatorDays.Chain.EpochRange
/-! Days of statistics: 225 epochs each, counted from genesis. They are no calendar days. -/
namespace ValidatorDays

structure Day where
  number : Int
  deriving DecidableEq, Repr

namespace Day

instance : LE Day := ⟨fun a b => a.number ≤ b.number⟩
instance : LT Day := ⟨fun a b => a.number < b.number⟩
instance (a b : Day) : Decidable (a ≤ b) := inferInstanceAs (Decidable (a.number ≤ b.number))
instance (a b : Day) : Decidable (a < b) := inferInstanceAs (Decidable (a.number < b.number))

def genesis : Day := ⟨0⟩

def text (d : Day) : String := intText d.number

def epochs (d : Day) : EpochRange :=
  ⟨⟨d.number * epochsPerDay⟩, ⟨d.number * epochsPerDay + (epochsPerDay - 1)⟩⟩

/-- The day before, or genesis itself. -/
def previous (d : Day) : Checked Day := return ⟨max (← Bounds.int32.check (d.number - 1)) 0⟩

/-- So many days back. Below genesis there are days as well, only nothing on them. -/
def minus (d : Day) (days : Int) : Checked Day :=
  return ⟨← Bounds.int32.check (d.number - days)⟩

def next (d : Day) : Checked Day := return ⟨← Bounds.int32.check (d.number + 1)⟩

end Day
end ValidatorDays
