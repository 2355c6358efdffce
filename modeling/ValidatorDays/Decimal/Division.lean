import ValidatorDays.Fault
import ValidatorDays.Decimal.Basic
/-! Division to a hundred significant digits, half away from zero. -/
namespace ValidatorDays.Decimal

/-- How many significant digits a quotient gets unless its whole part has more. -/
def quotientDigits : Nat := 100

def digitCount (n : Nat) : Nat := (Nat.toDigits 10 n).length

def raise (d : Nat) : Nat → Nat → Nat × Nat
  | 0, n => (n, 0)
  | fuel + 1, n =>
    if n < d then
      let rest := raise d fuel (10 * n)
      (rest.1, rest.2 + 1)
    else (n, 0)

/-- Appends digits of `q + r / d` to `q`, at most `fuel`, until nothing remains.
Gives the quotient, the remainder and the number of digits appended. -/
def unroll (d : Nat) : Nat → Nat → Nat → Nat × Nat × Nat
  | 0, q, r => (q, r, 0)
  | fuel + 1, q, r =>
    if r = 0 then (q, r, 0)
    else
      let rest := unroll d fuel (10 * q + 10 * r / d) (10 * r % d)
      (rest.1, rest.2.1, rest.2.2 + 1)

def quotient (n d : Nat) : Nat × Nat :=
  let raised := raise d (digitCount d) n
  let whole := raised.1 / d
  let digits := unroll d (quotientDigits - digitCount whole) whole (raised.1 % d)
  let up := if 5 ≤ 10 * digits.2.1 / d then 1 else 0
  (digits.1 + up, raised.2 + digits.2.2)

def divided (a b : Decimal) : Decimal :=
  if a.isZero || b.isOne then a
  else
    let q := quotient a.mantissa.natAbs b.mantissa.natAbs
    ⟨a.mantissa.sign * b.mantissa.sign * q.1, a.scale - b.scale + q.2⟩

/-- Nothing is divided by zero, not even zero. -/
def div (a b : Decimal) : Checked Decimal :=
  if b.isZero then .error .divisionByZero else .ok (divided a b)

instance : HDiv Decimal Decimal (Checked Decimal) := ⟨div⟩

end ValidatorDays.Decimal
