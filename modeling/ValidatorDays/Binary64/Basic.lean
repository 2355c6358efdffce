/-! Binary numbers of 64 bits. Every operation rounds its exact result to the nearest of them,
of two to the even one. -/
namespace ValidatorDays

/-- The number `significand · 2 ^ exponent` with its sign. Zero has a sign too. -/
structure Binary64 where
  negative : Bool
  significand : Nat
  exponent : Int
  deriving DecidableEq, Repr

/-- The whole number nearest to `n / d`, of two the even one. -/
def nearestWhole (n d : Nat) : Nat :=
  if d < 2 * (n % d) ∨ (d = 2 * (n % d) ∧ n / d % 2 = 1) then n / d + 1 else n / d

namespace Binary64

def significandLimit : Nat := Nat.pow 2 53

def significandLeast : Nat := Nat.pow 2 52

def leastExponent : Int := -1074
def greatestExponent : Int := 971

def zero (negative : Bool) : Binary64 := ⟨negative, 0, leastExponent⟩

/-- The exponent of `n / d`, which is not zero. Taken from the lengths of `n` and `d` it may be
too large by one. -/
def exponentOf (n d : Nat) : Int :=
  let e : Int := n.log2 - d.log2 - 52
  let isLarge := n * Nat.pow 2 (-e).toNat < significandLeast * (d * Nat.pow 2 e.toNat)
  max leastExponent (if isLarge then e - 1 else e)

def ofFraction (negative : Bool) (n d : Nat) : Binary64 :=
  if n = 0 then zero negative
  else
    let e := exponentOf n d
    let s := nearestWhole (n * Nat.pow 2 (-e).toNat) (d * Nat.pow 2 e.toNat)
    if s = significandLimit then ⟨negative, significandLeast, e + 1⟩ else ⟨negative, s, e⟩

/-- Rounding took it no further than the greatest exponent. -/
def isFinite (a : Binary64) : Bool := a.exponent ≤ greatestExponent

def numerator (a : Binary64) : Nat := a.significand * Nat.pow 2 a.exponent.toNat
def denominator (a : Binary64) : Nat := Nat.pow 2 (-a.exponent).toNat

def mul (a b : Binary64) : Binary64 :=
  ofFraction (a.negative != b.negative) (a.numerator * b.numerator)
    (a.denominator * b.denominator)

def div (a b : Binary64) : Binary64 :=
  ofFraction (a.negative != b.negative) (a.numerator * b.denominator)
    (a.denominator * b.numerator)

instance : Mul Binary64 := ⟨mul⟩
instance : Div Binary64 := ⟨div⟩

def powerOfTen (n : Nat) : Binary64 := ofFraction false (Nat.pow 10 n) 1

end Binary64
end ValidatorDays
