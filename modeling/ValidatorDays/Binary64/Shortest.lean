import ValidatorDays.Decimal.Basic
import ValidatorDays.Binary64.Basic
/-! The decimal number with the fewest digits among those that round to a binary number, and
of these the nearest to it. -/
namespace ValidatorDays.Binary64

/-- In quarters of the last bit, how far down a number reaches that rounds to this one. Where
the exponent changes the numbers below lie twice as close. -/
def quartersDown (a : Binary64) : Nat :=
  if a.significand = significandLeast ∧ leastExponent < a.exponent then 1 else 2

def quartersUp : Nat := 2

def step (a : Binary64) (power : Int) : Nat × Nat :=
  (Nat.pow 2 (a.exponent - 2).toNat * Nat.pow 10 (-power).toNat,
    Nat.pow 2 (2 - a.exponent).toNat * Nat.pow 10 power.toNat)

/-- Whether `n · 10 ^ power` rounds to the number. The two ends do so if the significand is
even. -/
def takes (a : Binary64) (power : Int) (n : Nat) : Bool :=
  let (quarter, unit) := a.step power
  let least := (4 * a.significand - a.quartersDown) * quarter
  let greatest := (4 * a.significand + quartersUp) * quarter
  if a.significand % 2 = 0 then least ≤ n * unit && n * unit ≤ greatest
  else least < n * unit && n * unit < greatest

/-- A multiple of `10 ^ power` that rounds to the number, the nearest if there are more. None
that lies further away than the two beside the number needs a look. -/
def multiple? (a : Binary64) (power : Int) : Option Nat :=
  let (quarter, unit) := a.step power
  let size := 4 * a.significand * quarter
  [nearestWhole size unit, size / unit, size / unit + 1].find? (a.takes power)

def leastPower : Int := -324

def greatestPower : Int := 309

def coarsest (a : Binary64) : Nat → Decimal
  | 0 => ⟨(a.multiple? leastPower).getD 0, -leastPower⟩
  | n + 1 =>
    match a.multiple? (leastPower + (n + 1 : Nat)) with
    | some m => ⟨m, -(leastPower + (n + 1 : Nat))⟩
    | none => a.coarsest n

/-- The shortest decimal number that rounds to this one, its sign left out. -/
def shortest (a : Binary64) : Decimal :=
  if a.significand = 0 then 0 else a.coarsest (greatestPower - leastPower).toNat

end ValidatorDays.Binary64
