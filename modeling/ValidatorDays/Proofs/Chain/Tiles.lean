import Mathlib.Data.List.Basic
import ValidatorDays.Chain.EpochRange
import ValidatorDays.Chain.IndexRange

namespace ValidatorDays

/-- The first number of a stretch, and the first number after it. -/
abbrev Stretch := Int × Int

/-- Each stretch begins where the one before it ends, the first at `start` and the last up to
`stop`. None is empty, and none has more than `width` numbers. -/
inductive Tiles (width : Int) : Int → List Stretch → Int → Prop where
  | nil (start : Int) : Tiles width start [] start
  | cons {start cut stop : Int} {rest : List Stretch} (proper : start < cut)
      (narrow : cut - start ≤ width) (others : Tiles width cut rest stop) :
      Tiles width start ((start, cut) :: rest) stop

def Stretch.holds (n : Int) (s : Stretch) : Bool := decide (s.1 ≤ n ∧ n < s.2)

def Stretch.numbers (s : Stretch) : List Int :=
  (List.range (s.2 - s.1).toNat).map fun k : Nat => s.1 + k

theorem Stretch.mem_numbers {s : Stretch} {n : Int} : n ∈ s.numbers ↔ s.1 ≤ n ∧ n < s.2 := by
  simp only [numbers, List.mem_map, List.mem_range]
  constructor
  · rintro ⟨k, below, rfl⟩
    omega
  · exact fun inside => ⟨(n - s.1).toNat, by omega, by omega⟩

namespace Tiles

variable {width start cut stop : Int} {first rest : List Stretch}

theorem le (tiles : Tiles width start rest stop) : start ≤ stop := by
  induction tiles with
  | nil => exact Int.le_refl _
  | cons proper _ _ ih => omega

theorem append (low : Tiles width start first cut) (high : Tiles width cut rest stop) :
    Tiles width start (first ++ rest) stop := by
  induction low with
  | nil => exact high
  | cons proper narrow _ ih => exact .cons proper narrow (ih high)

theorem single (proper : start < stop) (narrow : stop - start ≤ width) :
    Tiles width start [(start, stop)] stop := .cons proper narrow (.nil stop)

theorem within (tiles : Tiles width start rest stop) {s : Stretch} (member : s ∈ rest) :
    start ≤ s.1 ∧ s.1 < s.2 ∧ s.2 ≤ stop := by
  induction tiles with
  | nil => cases member
  | cons proper narrow others ih =>
    have onward := others.le
    rcases List.mem_cons.mp member with rfl | later
    · exact ⟨Int.le_refl _, proper, onward⟩
    · have inside := ih later
      omega

/-- Every number lies in exactly one stretch, and no others lie in any. -/
theorem count (tiles : Tiles width start rest stop) (n : Int) :
    rest.countP (Stretch.holds n) = if start ≤ n ∧ n < stop then 1 else 0 := by
  induction tiles with
  | nil start =>
    rw [if_neg (by omega)]
    rfl
  | @cons start cut stop rest proper narrow others ih =>
    have onward := others.le
    simp only [List.countP_cons, ih, Stretch.holds, decide_eq_true_eq]
    split_ifs <;> omega

theorem numbers (tiles : Tiles width start rest stop) :
    rest.flatMap Stretch.numbers = Stretch.numbers (start, stop) := by
  induction tiles with
  | nil start => simp [Stretch.numbers]
  | @cons start cut stop rest proper narrow others ih =>
    have onward := others.le
    have parts : (stop - start).toNat = (cut - start).toNat + (stop - cut).toNat := by omega
    rw [List.flatMap_cons, ih]
    simp only [Stretch.numbers, parts, List.range_add, List.map_append, List.map_map]
    congr 1
    refine List.map_congr_left fun k _ => ?_
    simp only [Function.comp_apply]
    omega

end Tiles

def EpochRange.stretch (r : EpochRange) : Stretch := (r.first.number, r.last.number + 1)

namespace IndexRange

instance : Membership ValidatorIndex IndexRange := ⟨fun r i => r.start ≤ i ∧ i < r.stop⟩

instance (r : IndexRange) (i : ValidatorIndex) : Decidable (i ∈ r) :=
  inferInstanceAs (Decidable (r.start ≤ i ∧ i < r.stop))

def stretch (r : IndexRange) : Stretch := (r.start, r.stop)

theorem mem_indices {r : IndexRange} {i : ValidatorIndex} : i ∈ r.indices ↔ i ∈ r :=
  Stretch.mem_numbers (s := r.stretch)

variable {count size : Int}

/-- How far the ranges reach: to the end of all validators, or to where a step of more than 32 bits
comes to by its low bits. -/
def reach (count size : Int) : Int :=
  max (if size ≤ Bounds.int32.greatest then count else min (Bounds.int32.wrap size) count) 0

theorem wrap_eq (n : Int) :
    Bounds.int32.wrap n = (n + 2147483648) % 4294967296 - 2147483648 := by
  simp only [Bounds.wrap, Bounds.int32, Int.sub_neg]
  rfl

theorem wrap_mem (n : Int) : Bounds.int32.wrap n ∈ Bounds.int32 := by
  rw [Bounds.mem_iff, wrap_eq]
  simp only [Bounds.int32]
  omega

theorem wrap_of_mem {n : Int} (inside : n ∈ Bounds.int32) : Bounds.int32.wrap n = n := by
  obtain ⟨least, greatest⟩ := inside
  simp only [Bounds.int32] at least greatest
  rw [wrap_eq]
  omega

theorem split_nonpositive (nonpositive : count ≤ 0) (size : Int) : split count size = [] := by
  have step : 0 < max size 1 := by omega
  have nothing : ((count + max size 1 - 1) / max size 1).toNat = 0 := by
    have below : (count + max size 1 - 1) / max size 1 < 1 :=
      (Int.ediv_lt_iff_lt_mul step).mpr (by omega)
    omega
  simp only [split, nothing]
  rfl

theorem split_wide (nonempty : 0 < count) (inRange : count ≤ Bounds.int32.greatest)
    (wide : Bounds.int32.greatest < size) :
    split count size = [⟨0, min (Bounds.int32.wrap size) count⟩] := by
  simp only [Bounds.int32] at inRange wide
  have step : max size 1 = size := by omega
  have one : ((count + size - 1) / size).toNat = 1 := by
    have least : 1 ≤ (count + size - 1) / size := (Int.le_ediv_iff_mul_le (by omega)).mpr (by omega)
    have below : (count + size - 1) / size < 2 :=
      (Int.ediv_lt_iff_lt_mul (by omega)).mpr (by omega)
    omega
  obtain ⟨low, high⟩ := wrap_mem size
  have clamped : Bounds.int32.clamp (Bounds.int32.wrap size) = Bounds.int32.wrap size := by
    rw [Bounds.clamp, Int.min_eq_left high, Int.max_eq_right low]
  simp only [split, step, one, List.range_one, List.map_cons, List.map_nil]
  simp [clamped]

theorem tiles_steps {step : Int} (onward : 0 < step) (positive : 0 < count) (n : Nat)
    (inside : step * (n - 1) < count) :
    Tiles step 0 ((List.range n).map fun k : Nat => (step * k, min (step * k + step) count))
      (min (step * n) count) := by
  induction n with
  | zero =>
    rw [Int.ofNat_zero, Int.mul_zero, Int.min_eq_left (Int.le_of_lt positive)]
    exact .nil 0
  | succ n ih =>
    have more : step * ((n + 1 : Nat) : Int) = step * n + step := by
      rw [Int.natCast_succ, Int.mul_add, Int.mul_one]
    have fewer : step * ((n : Int) - 1) = step * n - step := by
      rw [Int.mul_sub, Int.mul_one]
    have reached : step * n < count := by
      rw [Int.natCast_succ, Int.add_sub_cancel] at inside
      exact inside
    have before := ih (by omega)
    rw [Int.min_eq_left (Int.le_of_lt reached)] at before
    rw [List.range_succ, List.map_append, more]
    exact before.append (.single (by omega) (by omega))

theorem tiles_split_narrow (nonempty : 0 < count) (inRange : count ≤ Bounds.int32.greatest)
    (narrow : size ≤ Bounds.int32.greatest) :
    Tiles (max size 1) 0 ((split count size).map stretch) count := by
  simp only [Bounds.int32] at inRange narrow
  have forward : 0 < max size 1 := by omega
  have wrapped : Bounds.int32.wrap (max size 1) = max size 1 := by
    apply wrap_of_mem
    rw [Bounds.mem_iff]
    simp only [Bounds.int32]
    omega
  have same : (split count size).map stretch =
      (List.range ((count + max size 1 - 1) / max size 1).toNat).map
        fun k : Nat => (max size 1 * k, min (max size 1 * k + max size 1) count) := by
    rw [split, List.map_map]
    refine List.map_congr_left fun k _ => ?_
    have start : 0 ≤ max size 1 * (k : Int) := Int.mul_nonneg (by omega) (by omega)
    simp only [Function.comp_apply, stretch, wrapped]
    congr 1
    simp only [Bounds.clamp, Bounds.int32]
    omega
  generalize max size 1 = step at *
  have low := Int.mul_ediv_self_le (x := count + step - 1) (k := step) (by omega)
  have high := Int.lt_mul_ediv_self_add (x := count + step - 1) (k := step) (by omega)
  generalize (count + step - 1) / step = steps at *
  have positive : 0 ≤ steps := by
    by_contra negative
    have : step * steps ≤ step * (-1) := Int.mul_le_mul_of_nonneg_left (by omega) (by omega)
    omega
  have whole : ((steps.toNat : Nat) : Int) = steps := Int.toNat_of_nonneg positive
  have last := tiles_steps forward nonempty steps.toNat
    (by rw [whole, Int.mul_sub, Int.mul_one]; omega)
  rw [whole, Int.min_eq_right (by omega)] at last
  rw [same]
  exact last

theorem indices_split (nonneg : 0 ≤ count) (inRange : count ≤ Bounds.int32.greatest)
    (narrow : size ≤ Bounds.int32.greatest) :
    (split count size).flatMap indices = (List.range count.toNat).map fun k : Nat => (k : Int) := by
  have whole : (split count size).flatMap indices = Stretch.numbers (0, count) := by
    rcases Int.lt_or_eq_of_le nonneg with positive | zero
    · rw [← (tiles_split_narrow positive inRange narrow).numbers, List.flatMap_map]
      rfl
    · rw [← zero, split_nonpositive (Int.le_refl 0)]
      rfl
  simp only [whole, Stretch.numbers, Int.sub_zero, Int.zero_add]

theorem reach_eq_iff : reach count size = max count 0 ↔
    count ≤ 0 ∨ size ≤ Bounds.int32.greatest ∨ count ≤ Bounds.int32.wrap size := by
  unfold reach
  split <;> omega

theorem countP_stretch (ranges : List IndexRange) (i : Int) :
    (ranges.map stretch).countP (Stretch.holds i) = ranges.countP (i ∈ ·) := by
  rw [List.countP_map]
  rfl

theorem count_split (known : count ∈ Bounds.int32) (size i : Int) :
    (split count size).countP (i ∈ ·) = if 0 ≤ i ∧ i < reach count size then 1 else 0 := by
  have stretches := countP_stretch (split count size) i
  obtain ⟨-, inRange⟩ := known
  rw [reach]
  rcases Int.lt_or_le 0 count with nonempty | nonpositive
  · by_cases narrow : size ≤ Bounds.int32.greatest
    · rw [← stretches, (tiles_split_narrow nonempty inRange narrow).count, if_pos narrow,
        Int.max_eq_left (Int.le_of_lt nonempty)]
    · rw [← stretches, split_wide nonempty inRange (Int.not_le.mp narrow), if_neg narrow]
      simp only [List.map_cons, List.map_nil, stretch, List.countP_cons, List.countP_nil,
        Stretch.holds, decide_eq_true_eq]
      split_ifs <;> omega
  · rw [split_nonpositive nonpositive, if_neg (by split <;> omega)]
    rfl

/-- The ranges tile all validators just if they reach to their end. -/
theorem tiles_split_iff (known : count ∈ Bounds.int32) (size : Int) :
    Tiles (max size 1) 0 ((split count size).map stretch) (max count 0) ↔
      reach count size = max count 0 := by
  constructor
  · intro tiles
    -- The last validator is in one of the ranges that tile, so the ranges reach past it.
    have last := tiles.count (count - 1)
    rw [countP_stretch, count_split known] at last
    rw [reach] at last ⊢
    split_ifs at last ⊢ <;> omega
  · intro whole
    obtain ⟨-, inRange⟩ := known
    rcases Int.lt_or_le 0 count with nonempty | nonpositive
    · rw [Int.max_eq_left (Int.le_of_lt nonempty)] at whole ⊢
      by_cases narrow : size ≤ Bounds.int32.greatest
      · exact tiles_split_narrow nonempty inRange narrow
      · rw [reach, if_neg narrow] at whole
        have far : min (Bounds.int32.wrap size) count = count := by omega
        rw [split_wide nonempty inRange (Int.not_le.mp narrow), far]
        have fits : count - 0 ≤ max size 1 := by omega
        exact .single nonempty fits
    · rw [split_nonpositive nonpositive, Int.max_eq_right nonpositive]
      exact .nil 0

end IndexRange
end ValidatorDays
