import ValidatorDays.Binary64.Basic
/-! How large a number in a text is, as far as its digits are looked at: as many as 64 bits
hold. The rest only says where the point is. -/
namespace ValidatorDays.Json

structure Estimate where
  significand : Nat
  exponent : Int
  deriving DecidableEq, Repr

namespace Estimate

def significandLimit : Nat := Nat.pow 2 64

/-- From the first digit without room on, the digits before the point are only counted. -/
def addWhole (e : Estimate) : List Nat → Estimate
  | [] => e
  | d :: rest =>
    if 10 * e.significand + d < significandLimit then
      addWhole ⟨10 * e.significand + d, e.exponent⟩ rest
    else ⟨e.significand, e.exponent + (d :: rest).length⟩

def addFraction (e : Estimate) : List Nat → Estimate
  | [] => e
  | d :: rest =>
    if 10 * e.significand + d < significandLimit then
      addFraction ⟨10 * e.significand + d, e.exponent - 1⟩ rest
    else e

def ofDigits (whole fraction : List Nat) (exponent : Int) : Estimate :=
  let e := (addWhole ⟨0, 0⟩ whole).addFraction fraction
  ⟨e.significand, e.exponent + exponent⟩

def greatestPower : Nat := 308

/-- Divides by `10 ^ n` in one step or two. Of 64 bits the second of two full steps leaves
nothing, so there is no third. -/
def lowered (a : Binary64) (n : Nat) : Binary64 :=
  a / .powerOfTen (min n greatestPower) / .powerOfTen (min (n - greatestPower) greatestPower)

/-- The significand and the power of ten are rounded first, and what comes of them again.
Nothing comes of a number that is too large. -/
def binary? (negative : Bool) (e : Estimate) : Option Binary64 :=
  let a := Binary64.ofFraction negative e.significand 1
  if e.significand = 0 then some a
  else if e.exponent < 0 then some (lowered a (-e.exponent).toNat)
  else if greatestPower < e.exponent then none
  else
    let raised := a * .powerOfTen e.exponent.toNat
    if raised.isFinite then some raised else none

end Estimate
end ValidatorDays.Json
