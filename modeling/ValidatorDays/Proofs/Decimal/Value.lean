import Mathlib.Algebra.Order.Field.Rat
import Mathlib.Data.Rat.Cast.CharZero
import Mathlib.Tactic.Positivity
import Mathlib.Tactic.Ring
import ValidatorDays.Decimal.Basic

namespace ValidatorDays.Decimal

def value (a : Decimal) : ℚ := a.mantissa * (10 : ℚ) ^ (-a.scale)

@[simp] theorem value_ofInt (n : Int) : (ofInt n).value = n := by
  simp [value, ofInt]

@[simp] theorem value_zero : (0 : Decimal).value = 0 := by
  show (ofInt 0).value = 0
  rw [value_ofInt, Int.cast_zero]

theorem mantissaAt_value (a : Decimal) {scale : Int} (finer : a.scale ≤ scale) :
    (a.mantissaAt scale : ℚ) * (10 : ℚ) ^ (-scale) = a.value := by
  have digits : ((scale - a.scale).toNat : Int) + -scale = -a.scale := by omega
  rw [mantissaAt, Int.pow_eq, value, ← digits, zpow_add₀ (by norm_num), zpow_natCast]
  push_cast
  ring

@[simp] theorem value_add (a b : Decimal) : (a + b).value = a.value + b.value := by
  rw [← a.mantissaAt_value (le_max_left a.scale b.scale),
    ← b.mantissaAt_value (le_max_right a.scale b.scale), ← add_mul, ← Int.cast_add]
  rfl

@[simp] theorem value_neg (a : Decimal) : (-a).value = -a.value := by
  show (a.neg).value = -a.value
  rw [value, value, neg, Int.cast_neg, neg_mul]

@[simp] theorem value_mul (a b : Decimal) : (a * b).value = a.value * b.value := by
  show (a.mul b).value = a.value * b.value
  rw [value, value, value, mul, neg_add, zpow_add₀ (by norm_num), Int.cast_mul]
  ring

theorem value_of_isZero {a : Decimal} (zero : a.isZero = true) : a.value = 0 := by
  have vanishes : a.mantissa = 0 := beq_iff_eq.mp zero
  rw [value, vanishes, Int.cast_zero, zero_mul]

@[simp] theorem value_sub (a b : Decimal) : (a - b).value = a.value - b.value := by
  show (a.sub b).value = a.value - b.value
  unfold sub
  split
  next zero => rw [value_of_isZero zero, sub_zero]
  split
  next zero =>
    rw [value_of_isZero zero, zero_sub]
    exact value_neg b
  next nonzero =>
    rw [← a.mantissaAt_value (le_max_left a.scale b.scale),
      ← b.mantissaAt_value (le_max_right a.scale b.scale), ← sub_mul, ← Int.cast_sub]
    rfl

theorem ofInt_add (m n : Int) : ofInt m + ofInt n = ofInt (m + n) := by
  show (ofInt m).add (ofInt n) = _
  simp [add, ofInt, finerScale, mantissaAt]

theorem ofInt_sub (m n : Int) : ofInt m - ofInt n = ofInt (m - n) := by
  show (ofInt m).sub (ofInt n) = _
  unfold sub
  split
  next zero =>
    have vanishes : n = 0 := beq_iff_eq.mp zero
    rw [vanishes, sub_zero]
  split
  next zero =>
    have vanishes : m = 0 := beq_iff_eq.mp zero
    rw [vanishes, zero_sub]
    rfl
  next nonzero => simp [ofInt, finerScale, mantissaAt]

theorem isZero_ofInt {n : Int} : (ofInt n).isZero = false ↔ n ≠ 0 := beq_eq_false_iff_ne

theorem ofInt_le (m n : Int) : ofInt m ≤ ofInt n ↔ m ≤ n := by
  show (ofInt m).Le (ofInt n) ↔ _
  simp [Le, ofInt, finerScale, mantissaAt]

theorem ofInt_lower (m n : Int) : (ofInt m).lower (ofInt n) = ofInt (min m n) := by
  simp only [lower, ofInt_le, min_def]
  split <;> rfl

end ValidatorDays.Decimal
