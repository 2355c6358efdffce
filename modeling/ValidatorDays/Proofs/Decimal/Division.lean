import Mathlib
import ValidatorDays.Decimal.Division
import ValidatorDays.Proofs.Decimal.Value
/-! How good a quotient is. It is exact if it has a hundred significant digits or fewer, and off by
half of its last digit at most if it has more. -/
namespace ValidatorDays.Decimal

section Digits

variable {n k : Nat}

theorem digitCount_le_iff (positive : 0 < k) : digitCount n ≤ k ↔ n < 10 ^ k :=
  Nat.length_toDigits_le_iff (by norm_num) positive

theorem digitCount_pos (n : Nat) : 0 < digitCount n := Nat.length_toDigits_pos

theorem lt_pow_digitCount (n : Nat) : n < 10 ^ digitCount n :=
  (digitCount_le_iff (digitCount_pos n)).mp le_rfl

theorem pow_le_of_lt_digitCount (nonzero : 0 < n) (fewer : k < digitCount n) : 10 ^ k ≤ n := by
  rcases Nat.eq_zero_or_pos k with rfl | positive
  · exact nonzero
  · by_contra less
    exact absurd ((digitCount_le_iff positive).mpr (not_le.mp less)) (not_le.mpr fewer)

end Digits

theorem raise_spec (d fuel n : Nat) : ∃ k, raise d fuel n = (n * 10 ^ k, k) ∧
    (d ≤ n * 10 ^ k ∨ k = fuel) ∧ (k = 0 ∨ n * 10 ^ k < 10 * d) := by
  induction fuel generalizing n with
  | zero => exact ⟨0, by simp [raise], .inr rfl, .inl rfl⟩
  | succ fuel ih =>
    by_cases less : n < d
    · obtain ⟨k, raised, enough, fewest⟩ := ih (10 * n)
      have shift : 10 * n * 10 ^ k = n * 10 ^ (k + 1) := by ring
      rw [shift] at raised enough fewest
      refine ⟨k + 1, by rw [raise, if_pos less, raised], enough.imp_right (congrArg _), .inr ?_⟩
      rcases fewest with rfl | fewest
      · rw [zero_add, pow_one]
        omega
      · exact fewest
    · exact ⟨0, by simp [raise, less], .inl (by simpa using less), .inl rfl⟩

/-- Digits are appended until nothing remains, or until there are enough of them. -/
structure Unrolled (d fuel q r : Nat) (digits : Nat × Nat × Nat) : Prop where
  same : digits.1 * d + digits.2.1 = (q * d + r) * 10 ^ digits.2.2
  below : digits.2.1 < d
  inFuel : digits.2.2 ≤ fuel
  stops : digits.2.1 = 0 ∨ digits.2.2 = fuel

theorem unroll_spec {d r : Nat} (fuel q : Nat) (below : r < d) :
    Unrolled d fuel q r (unroll d fuel q r) := by
  induction fuel generalizing q r with
  | zero => exact ⟨by simp [unroll], below, le_rfl, .inr rfl⟩
  | succ fuel ih =>
    rw [unroll]
    by_cases nothing : r = 0
    · rw [if_pos nothing]
      exact ⟨by simp, below, Nat.zero_le _, .inl nothing⟩
    · rw [if_neg nothing]
      have rest := ih (10 * q + 10 * r / d) (Nat.mod_lt (10 * r) (by omega))
      have digit : (10 * q + 10 * r / d) * d + 10 * r % d = (q * d + r) * 10 := by
        rw [add_mul, add_assoc, Nat.div_add_mod']
        ring
      refine ⟨?_, rest.below, Nat.succ_le_succ rest.inFuel, rest.stops.imp_right (congrArg (· + 1))⟩
      rw [rest.same, digit, pow_succ']
      ring

theorem Unrolled.bounds {d fuel q r : Nat} {digits : Nat × Nat × Nat}
    (unrolled : Unrolled d fuel q r digits) (below : r < d) :
    q * 10 ^ digits.2.2 ≤ digits.1 ∧ digits.1 < (q + 1) * 10 ^ digits.2.2 := by
  have same := unrolled.same
  have left := unrolled.below
  have power : 0 < 10 ^ digits.2.2 := by positivity
  constructor
  · have least : q * 10 ^ digits.2.2 * d < (digits.1 + 1) * d := by nlinarith
    exact Nat.lt_succ_iff.mp (Nat.lt_of_mul_lt_mul_right least)
  · have scaled : digits.1 * d < (q + 1) * 10 ^ digits.2.2 * d := by nlinarith
    exact Nat.lt_of_mul_lt_mul_right scaled

/-- The nearest number of a hundred digits, unless fewer are enough. -/
structure Nearest (x : ℚ) (q : Nat × Nat) : Prop where
  near : |(q.1 : ℚ) - x * 10 ^ q.2| ≤ 1 / 2
  digits : (q.1 : ℚ) = x * 10 ^ q.2 ∨ 10 ^ (quotientDigits - 1) ≤ x * 10 ^ q.2

/-- A quotient as it is worked out, before it is rounded: its digits, what remains, and how many
places it has. -/
structure Worked (n d : Nat) (digits : Nat × Nat × Nat) : Prop where
  same : digits.1 * d + digits.2.1 = n * 10 ^ digits.2.2
  below : digits.2.1 < d
  enough : digits.2.1 = 0 ∨ 10 ^ (quotientDigits - 1) ≤ digits.1
  short : n < 10 ^ quotientDigits → digits.1 < 10 ^ quotientDigits

theorem quotient_worked {n d : Nat} (dividend : 0 < n) (positive : 0 < d) :
    ∃ q r places, Worked n d (q, r, places) ∧
      quotient n d = (q + if 5 ≤ 10 * r / d then 1 else 0, places) := by
  obtain ⟨k, raised, enough, fewest⟩ := raise_spec d (digitCount d) n
  have goes : d ≤ n * 10 ^ k := by
    rcases enough with goes | rfl
    · exact goes
    · exact (lt_pow_digitCount d).le.trans (Nat.le_mul_of_pos_left _ dividend)
  have whole : 0 < n * 10 ^ k / d := Nat.div_pos goes positive
  have unrolled := unroll_spec (quotientDigits - digitCount (n * 10 ^ k / d)) (n * 10 ^ k / d)
    (Nat.mod_lt (n * 10 ^ k) positive)
  obtain ⟨least, upper⟩ := unrolled.bounds (Nat.mod_lt (n * 10 ^ k) positive)
  generalize digits : unroll d (quotientDigits - digitCount (n * 10 ^ k / d)) (n * 10 ^ k / d)
    (n * 10 ^ k % d) = u at unrolled least upper
  obtain ⟨q, r, j⟩ := u
  refine ⟨q, r, k + j, ⟨?same, unrolled.below, ?enough, ?short⟩, ?quotient⟩
  case same =>
    have same := unrolled.same
    rw [Nat.div_add_mod'] at same
    rw [same, pow_add, mul_assoc]
  case enough =>
    -- Where something remains, digits were appended until there were a hundred.
    refine unrolled.stops.imp_right fun full => ?_
    have full : j = quotientDigits - digitCount (n * 10 ^ k / d) := full
    have leading : 10 ^ (digitCount (n * 10 ^ k / d) - 1) ≤ n * 10 ^ k / d :=
      pow_le_of_lt_digitCount whole (Nat.sub_lt (digitCount_pos _) Nat.one_pos)
    calc 10 ^ (quotientDigits - 1)
        ≤ 10 ^ (digitCount (n * 10 ^ k / d) - 1 + j) :=
          Nat.pow_le_pow_right (by norm_num) (by omega)
      _ = 10 ^ (digitCount (n * 10 ^ k / d) - 1) * 10 ^ j := pow_add _ _ _
      _ ≤ n * 10 ^ k / d * 10 ^ j := Nat.mul_le_mul_right _ leading
      _ ≤ q := least
  case short =>
    intro bounded
    have narrow : n * 10 ^ k / d < 10 ^ quotientDigits := by
      rcases fewest with rfl | fewest
      · rw [pow_zero, mul_one]
        exact (Nat.div_le_self n d).trans_lt bounded
      · have digit : n * 10 ^ k / d < 10 := Nat.div_lt_of_lt_mul (fewest.trans_eq (mul_comm 10 d))
        exact digit.trans_le (Nat.le_self_pow (by decide) 10)
    have fits : digitCount (n * 10 ^ k / d) ≤ quotientDigits :=
      (digitCount_le_iff (by decide)).mpr narrow
    have appended : j ≤ quotientDigits - digitCount (n * 10 ^ k / d) := unrolled.inFuel
    calc q
        < (n * 10 ^ k / d + 1) * 10 ^ j := upper
      _ ≤ 10 ^ digitCount (n * 10 ^ k / d) * 10 ^ j :=
          Nat.mul_le_mul_right _ (lt_pow_digitCount _)
      _ = 10 ^ (digitCount (n * 10 ^ k / d) + j) := (pow_add _ _ _).symm
      _ ≤ 10 ^ quotientDigits := Nat.pow_le_pow_right (by norm_num) (by omega)
  case quotient =>
    rw [quotient, raised]
    simp only [digits]

/-- What remains is rounded up from half of the divisor on. -/
theorem quotient_nearest {n d : Nat} (dividend : 0 < n) (positive : 0 < d) :
    Nearest (n / d) (quotient n d) ∧
      (n < 10 ^ quotientDigits → (quotient n d).1 ≤ 10 ^ quotientDigits) := by
  obtain ⟨q, r, places, worked, rounded⟩ := quotient_worked dividend positive
  have divisor : (0 : ℚ) < d := by exact_mod_cast positive
  have whole : (q : ℚ) * d + r = n * 10 ^ places := by exact_mod_cast worked.same
  have same : (n / d : ℚ) * 10 ^ places = q + r / d := by
    rw [div_mul_eq_mul_div, ← whole, add_div, mul_div_cancel_right₀ _ divisor.ne']
  have nonneg : (0 : ℚ) ≤ r / d := by positivity
  have less : (r / d : ℚ) < 1 := (div_lt_one divisor).mpr (by exact_mod_cast worked.below)
  have up : 5 ≤ 10 * r / d ↔ (1 / 2 : ℚ) ≤ r / d := by
    rw [Nat.le_div_iff_mul_le positive, div_le_div_iff₀ two_pos divisor, one_mul]
    norm_cast
    omega
  rw [rounded]
  refine ⟨⟨?near, ?digits⟩, fun bounded => ?short⟩
  case near =>
    simp only [same, up]
    split_ifs with half
    · push_cast
      rw [abs_le]
      constructor <;> linarith
    · push_cast
      rw [abs_le]
      constructor <;> linarith
  case digits =>
    simp only [same]
    rcases worked.enough with nothing | enough
    · have nothing : r = 0 := nothing
      subst nothing
      simp
    · right
      have enough : (10 : ℚ) ^ (quotientDigits - 1) ≤ q := by exact_mod_cast enough
      linarith
  case short =>
    have within : q < 10 ^ quotientDigits := worked.short bounded
    show q + _ ≤ _
    split_ifs <;> omega

theorem shift_back (x : ℚ) (k : ℤ) : x * 10 ^ k * 10 ^ (-k) = x := by
  rw [mul_assoc, ← zpow_add₀ (by norm_num), add_neg_cancel, zpow_zero, mul_one]

theorem place_back (x : ℚ) (n : ℕ) : x * 10 ^ n * 10 ^ (-n : ℤ) = x := by
  rw [← zpow_natCast]
  exact shift_back x n

def Short (x : ℚ) : Prop := ∃ m k : ℤ, |m| < 10 ^ quotientDigits ∧ x = m * 10 ^ k

section Short

variable {x : ℚ}

theorem Short.shift (short : Short x) (k : ℤ) : Short (x * 10 ^ k) := by
  obtain ⟨m, e, bounded, rfl⟩ := short
  exact ⟨m, e + k, bounded, by rw [zpow_add₀ (by norm_num), mul_assoc]⟩

theorem Short.neg (short : Short x) : Short (-x) := by
  obtain ⟨m, e, bounded, rfl⟩ := short
  exact ⟨-m, e, by rwa [abs_neg], by rw [Int.cast_neg, neg_mul]⟩

theorem short_of_le {m : ℤ} (bounded : |m| ≤ 10 ^ quotientDigits) (k : ℤ) : Short (m * 10 ^ k) := by
  rcases bounded.lt_or_eq with below | same
  · exact ⟨m, k, below, rfl⟩
  · have one : Short (10 ^ quotientDigits * 10 ^ k) :=
      ⟨1, quotientDigits + k, by norm_num [quotientDigits], by
        rw [zpow_add₀ (by norm_num), zpow_natCast, Int.cast_one, one_mul]⟩
    obtain rfl | rfl := eq_or_eq_neg_of_abs_eq same
    · simpa using one
    · simpa using one.neg

/-- Between two places there is none that a short number needs. -/
theorem Nearest.exact {q : Nat × Nat} (nearest : Nearest x q) (short : Short x) :
    (q.1 : ℚ) = x * 10 ^ q.2 := by
  obtain ⟨m, e, bounded, rfl⟩ := short
  have places : (m : ℚ) * 10 ^ e * 10 ^ q.2 = m * 10 ^ (e + q.2) := by
    rw [zpow_add₀ (by norm_num), zpow_natCast, mul_assoc]
  have near := nearest.near
  obtain same | many := nearest.digits
  · exact same
  rw [places] at near many ⊢
  rcases le_or_gt 0 (e + q.2) with inside | beyond
  · obtain ⟨k, same⟩ := Int.eq_ofNat_of_zero_le inside
    rw [same, zpow_natCast] at near ⊢
    have whole : |((q.1 - m * 10 ^ k : ℤ) : ℚ)| < 1 := by
      push_cast
      exact near.trans_lt (by norm_num)
    have zero : (q.1 - m * 10 ^ k : ℤ) = 0 := Int.abs_lt_one_iff.mp (by exact_mod_cast whole)
    have same : (q.1 : ℤ) = m * 10 ^ k := by linarith
    exact_mod_cast same
  · -- A short number that goes on past the last place has fewer digits before it than there are.
    exfalso
    have small : (10 : ℚ) ^ (e + q.2) ≤ 10 ^ (-1 : ℤ) :=
      zpow_le_zpow_right₀ (by norm_num) (by omega)
    have fewer : |(m : ℚ)| < 10 ^ quotientDigits := by exact_mod_cast bounded
    have less : (m : ℚ) * 10 ^ (e + q.2) < 10 ^ (quotientDigits - 1) := by
      calc (m : ℚ) * 10 ^ (e + q.2)
          ≤ |(m : ℚ)| * 10 ^ (-1 : ℤ) :=
            mul_le_mul (le_abs_self _) small (by positivity) (abs_nonneg _)
        _ < 10 ^ quotientDigits * 10 ^ (-1 : ℤ) := by gcongr
        _ = 10 ^ (quotientDigits - 1) := by norm_num [quotientDigits]
    exact absurd many (not_le.mpr less)

theorem Nearest.relative {q : Nat × Nat} (nearest : Nearest x q) (nonneg : 0 ≤ x) :
    |q.1 * (10 : ℚ) ^ (-q.2 : ℤ) - x| ≤ x * 10 ^ (-99 : ℤ) := by
  have positive : (0 : ℚ) < 10 ^ (-q.2 : ℤ) := by positivity
  have scaled : (q.1 : ℚ) * 10 ^ (-q.2 : ℤ) - x =
      (q.1 - x * 10 ^ q.2) * 10 ^ (-q.2 : ℤ) := by
    rw [sub_mul, place_back]
  rw [scaled]
  obtain same | many := nearest.digits
  · rw [same, sub_self, zero_mul, abs_zero]
    positivity
  · have hundred : (10 : ℚ) ^ (quotientDigits - 1) * 10 ^ (-99 : ℤ) = 1 := by
      norm_num [quotientDigits]
    calc |((q.1 : ℚ) - x * 10 ^ q.2) * 10 ^ (-q.2 : ℤ)|
        = |(q.1 : ℚ) - x * 10 ^ q.2| * 10 ^ (-q.2 : ℤ) := by rw [abs_mul, abs_of_pos positive]
      _ ≤ 1 * 10 ^ (-q.2 : ℤ) :=
          mul_le_mul_of_nonneg_right (nearest.near.trans (by norm_num)) positive.le
      _ = 10 ^ (quotientDigits - 1) * (10 ^ (-q.2 : ℤ) * 10 ^ (-99 : ℤ)) := by
          rw [mul_left_comm, hundred, mul_one, one_mul]
      _ ≤ x * 10 ^ q.2 * (10 ^ (-q.2 : ℤ) * 10 ^ (-99 : ℤ)) :=
          mul_le_mul_of_nonneg_right many (by positivity)
      _ = x * 10 ^ (-99 : ℤ) := by rw [← mul_assoc, place_back]

end Short

structure Rounds (x v : ℚ) : Prop where
  near : |v - x| ≤ |x| * 10 ^ (-99 : ℤ)
  exact : Short x → v = x

section Rounds

variable {x v : ℚ}

theorem Rounds.refl (x : ℚ) : Rounds x x where
  near := by
    rw [sub_self, abs_zero]
    positivity
  exact := fun _ => rfl

theorem Rounds.neg (rounds : Rounds x v) : Rounds (-x) (-v) where
  near := by
    rw [neg_sub_neg, abs_sub_comm, abs_neg]
    exact rounds.near
  exact := fun short => congrArg _ (rounds.exact (neg_neg x ▸ short.neg))

theorem Rounds.shift (rounds : Rounds x v) (k : ℤ) : Rounds (x * 10 ^ k) (v * 10 ^ k) where
  near := by
    rw [← sub_mul, abs_mul, abs_mul, mul_right_comm]
    exact mul_le_mul_of_nonneg_right rounds.near (abs_nonneg _)
  exact := by
    intro short
    have whole := short.shift (-k)
    rw [shift_back] at whole
    rw [rounds.exact whole]

theorem Nearest.rounds {q : Nat × Nat} (nearest : Nearest x q) (nonneg : 0 ≤ x) :
    Rounds x (q.1 * 10 ^ (-q.2 : ℤ)) where
  near := by
    rw [abs_of_nonneg nonneg]
    exact nearest.relative nonneg
  exact := by
    intro short
    rw [nearest.exact short, place_back]

end Rounds

section Divided

variable {a b : Decimal}

theorem value_of_isOne (one : b.isOne = true) : b.value = 1 := by
  obtain ⟨places, same⟩ := Bool.and_eq_true_iff.mp one
  obtain ⟨nonneg, -⟩ := of_decide_eq_true places
  obtain ⟨k, scale⟩ := Int.eq_ofNat_of_zero_le nonneg
  rw [value, beq_iff_eq.mp same, scale]
  simp [Int.pow_eq]

theorem divided_value (nonzero : a.isZero = false) (other : b.isOne = false) :
    (divided a b).value = (a.mantissa.sign * b.mantissa.sign : ℤ) *
      ((quotient a.mantissa.natAbs b.mantissa.natAbs).1 *
        10 ^ (-(quotient a.mantissa.natAbs b.mantissa.natAbs).2 : ℤ)) *
      10 ^ (b.scale - a.scale) := by
  rw [divided, nonzero, other]
  generalize quotient a.mantissa.natAbs b.mantissa.natAbs = q
  have places : -(a.scale - b.scale + q.2) = -q.2 + (b.scale - a.scale) := by ring
  show ((a.mantissa.sign * b.mantissa.sign * q.1 : ℤ) : ℚ) * 10 ^ (-(a.scale - b.scale + q.2)) = _
  rw [places, zpow_add₀ (by norm_num)]
  push_cast
  ring

theorem mantissa_ne_zero (nonzero : a.isZero = false) : a.mantissa ≠ 0 := by
  simpa [isZero] using nonzero

theorem value_ne_zero (nonzero : a.isZero = false) : a.value ≠ 0 :=
  mul_ne_zero (Int.cast_ne_zero.mpr (mantissa_ne_zero nonzero)) (zpow_ne_zero _ (by norm_num))

theorem div_value (divisor : b.isZero = false) : a.value / b.value =
    (a.mantissa.sign * b.mantissa.sign : ℤ) *
      (a.mantissa.natAbs / b.mantissa.natAbs : ℚ) * 10 ^ (b.scale - a.scale) := by
  have nonzero := mantissa_ne_zero divisor
  have size : (b.mantissa.natAbs : ℚ) ≠ 0 := by simpa using nonzero
  have whole (n : ℤ) : (n : ℚ) = n.sign * n.natAbs := by
    rw [← Int.cast_natCast, ← Int.cast_mul, Int.sign_mul_natAbs]
  have unit : (b.mantissa.sign : ℚ) * b.mantissa.sign = 1 := by
    rw [← Int.cast_mul, ← Int.sign_mul, Int.sign_eq_one_of_pos (mul_self_pos.mpr nonzero),
      Int.cast_one]
  have places : (10 : ℚ) ^ (b.scale - a.scale) * 10 ^ (-b.scale) = 10 ^ (-a.scale) := by
    rw [← zpow_add₀ (by norm_num)]
    ring_nf
  rw [div_eq_iff (value_ne_zero divisor), value, value, whole a.mantissa, whole b.mantissa,
    ← places]
  rw [Int.cast_mul]
  calc (a.mantissa.sign : ℚ) * a.mantissa.natAbs *
        (10 ^ (b.scale - a.scale) * 10 ^ (-b.scale))
      = a.mantissa.sign * (b.mantissa.sign * b.mantissa.sign) *
          (a.mantissa.natAbs / b.mantissa.natAbs * b.mantissa.natAbs) *
          (10 ^ (b.scale - a.scale) * 10 ^ (-b.scale)) := by
        rw [unit, mul_one, div_mul_cancel₀ _ size]
    _ = _ := by ring

theorem sign_cases (nonzero : a.isZero = false) (other : b.isZero = false) :
    a.mantissa.sign * b.mantissa.sign = 1 ∨ a.mantissa.sign * b.mantissa.sign = -1 := by
  rw [← Int.sign_mul]
  obtain less | more := lt_or_gt_of_ne
    (mul_ne_zero (mantissa_ne_zero nonzero) (mantissa_ne_zero other))
  · exact .inr (Int.sign_eq_neg_one_of_neg less)
  · exact .inl (Int.sign_eq_one_of_pos more)

theorem divided_rounds (nonzero : b.isZero = false) :
    Rounds (a.value / b.value) (divided a b).value := by
  cases zero : a.isZero with
  | true =>
    rw [divided, zero, value_of_isZero zero, zero_div]
    exact value_of_isZero zero ▸ .refl _
  | false =>
    cases one : b.isOne with
    | true =>
      rw [divided, one, Bool.or_true, value_of_isOne one, div_one]
      exact .refl _
    | false =>
      have dividend : 0 < a.mantissa.natAbs := Int.natAbs_pos.mpr (mantissa_ne_zero zero)
      have divisor : 0 < b.mantissa.natAbs := Int.natAbs_pos.mpr (mantissa_ne_zero nonzero)
      have rounds := (quotient_nearest dividend divisor).1.rounds (by positivity)
      rw [divided_value zero one, div_value nonzero]
      apply Rounds.shift
      rcases sign_cases zero nonzero with same | opposite
      · simpa [same] using rounds
      · simpa [opposite] using rounds.neg

theorem divided_short (nonzero : b.isZero = false)
    (bounded : a.mantissa.natAbs < 10 ^ quotientDigits) :
    Short (divided a b).value := by
  have own : Short a.value := by
    refine short_of_le ?_ _
    rw [Int.abs_eq_natAbs]
    exact_mod_cast bounded.le
  cases zero : a.isZero with
  | true =>
    rw [divided, zero]
    exact own
  | false =>
    cases one : b.isOne with
    | true =>
      rw [divided, one, Bool.or_true]
      exact own
    | false =>
      have dividend : 0 < a.mantissa.natAbs := Int.natAbs_pos.mpr (mantissa_ne_zero zero)
      have divisor : 0 < b.mantissa.natAbs := Int.natAbs_pos.mpr (mantissa_ne_zero nonzero)
      have quotientShort := (quotient_nearest dividend divisor).2 bounded
      rw [divided_value zero one]
      apply Short.shift
      have short := short_of_le (m := (quotient a.mantissa.natAbs b.mantissa.natAbs).1)
        (by rw [Int.abs_natCast]; exact_mod_cast quotientShort)
        (-(quotient a.mantissa.natAbs b.mantissa.natAbs).2)
      rcases sign_cases zero nonzero with same | opposite
      · simpa [same] using short
      · simpa [opposite] using short.neg

/-- A power of ten only shifts what has been divided already, so that nothing is rounded twice. -/
theorem divided_twice {c : Decimal} (nonzero : b.isZero = false)
    (bounded : a.mantissa.natAbs < 10 ^ quotientDigits) (nonzeroToo : c.isZero = false) {k : ℤ}
    (power : c.value = 10 ^ k) :
    Rounds (a.value / b.value / c.value) (divided (divided a b) c).value := by
  have shifted (x : ℚ) : x / c.value = x * 10 ^ (-k) := by rw [power, zpow_neg, div_eq_mul_inv]
  have second := divided_rounds (a := divided a b) nonzeroToo
  rw [shifted] at second ⊢
  rw [second.exact ((divided_short nonzero bounded).shift (-k))]
  exact (divided_rounds nonzero).shift (-k)

theorem div_eq_ok (nonzero : b.isZero = false) : (a / b : Checked Decimal) = .ok (divided a b) := by
  show a.div b = _
  rw [div, nonzero]
  rfl

end Divided

end ValidatorDays.Decimal
