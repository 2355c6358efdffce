import ValidatorDays.Proofs.Chain.Moments
/-! The slot of a moment. The seconds since genesis are cut towards zero before they are divided, so
from genesis on a moment has the slot that is under way. Before genesis a second counts as over from
its beginning, and in the last second before a slot the slot itself is told already. -/
namespace ValidatorDays

namespace Slot

variable {s : Slot} {t : Instant}

/-- The slot has begun and the one after it has not, and the calendar has a date for both. -/
def UnderWay (s : Slot) (t : Instant) : Prop :=
  ∃ next begun later, s.plus 1 = .ok next ∧ s.time = .ok begun ∧ next.time = .ok later ∧
    begun ≤ t ∧ t < later

/-- Part of a second is left to the beginning of the slot, which is not after genesis. -/
def AboutToBegin (s : Slot) (t : Instant) : Prop :=
  ∃ begun, s.time = .ok begun ∧ begun ≤ genesis ∧ t < begun ∧
    begun.nanoseconds < t.nanoseconds + Instant.nanosecondsPerSecond

theorem start_nanoseconds (s : Slot) :
    s.start.nanoseconds = genesis.nanoseconds + s.number * 12000000000 := by
  simp only [start, secondsPerSlot, Instant.nanosecondsPerSecond]
  omega

theorem ofInstant_since (since : genesis ≤ t) :
    (ofInstant t).start ≤ t ∧ t < start ⟨(ofInstant t).number + 1⟩ := by
  have since : 0 ≤ t.nanoseconds - genesis.nanoseconds := Int.sub_nonneg_of_le since
  show _ ≤ t.nanoseconds ∧ t.nanoseconds < _
  simp only [start_nanoseconds, ofInstant, Instant.secondsSince, Instant.nanosecondsPerSecond,
    secondsPerSlot, Int.tdiv_eq_ediv_of_nonneg since]
  omega

/-- The twelve seconds that have this slot lie a second earlier than the slot, and their end belongs
to them instead of their beginning. -/
theorem ofInstant_before (before : t < genesis) :
    (ofInstant t).start.nanoseconds < t.nanoseconds + Instant.nanosecondsPerSecond ∧
      t.nanoseconds + Instant.nanosecondsPerSecond ≤
        (start ⟨(ofInstant t).number + 1⟩).nanoseconds := by
  have before : 0 ≤ genesis.nanoseconds - t.nanoseconds :=
    Int.sub_nonneg_of_le (Int.le_of_lt before)
  have seconds : t.secondsSince genesis =
      -((genesis.nanoseconds - t.nanoseconds) / 1000000000) := by
    rw [Instant.secondsSince, ← Int.neg_sub, Int.neg_tdiv, Int.tdiv_eq_ediv_of_nonneg before]
    rfl
  simp only [start_nanoseconds, ofInstant, seconds, secondsPerSlot, Instant.nanosecondsPerSecond]
  omega

theorem ofInstant_start (s : Slot) : ofInstant s.start = s := by
  have whole : s.start.nanoseconds - genesis.nanoseconds =
      s.number * secondsPerSlot * Instant.nanosecondsPerSecond := by
    simp only [start]
    omega
  rw [ofInstant, Instant.secondsSince, whole, Int.mul_tdiv_cancel _ (by decide),
    Int.mul_ediv_cancel _ (by decide)]

theorem ofInstant_aboutToBegin (about : s.AboutToBegin t) : ofInstant t = s := by
  obtain ⟨begun, time, up, before, left⟩ := about
  obtain ⟨-, rfl⟩ := time_eq_ok_iff.mp time
  have up : s.start.nanoseconds ≤ genesis.nanoseconds := up
  have before : t.nanoseconds < s.start.nanoseconds := before
  obtain ⟨low, high⟩ := ofInstant_before (t := t) (Int.lt_of_lt_of_le before up)
  simp only [start_nanoseconds, Instant.nanosecondsPerSecond] at low high before left
  have same : (ofInstant t).number = s.number := by omega
  exact congrArg mk same

section Dated

-- A slot's length before the moment and after it the calendar still has dates.
variable (early : t.seconds - secondsPerSlot ∈ Instant.calendar)
  (late : t.seconds + secondsPerSlot ∈ Instant.calendar)

include early late

theorem underWay_iff : s.UnderWay t ↔ s.start ≤ t ∧ t < start ⟨s.number + 1⟩ := by
  constructor
  · rintro ⟨_, _, _, next, begun, later, before, after⟩
    obtain ⟨-, rfl⟩ := plus_eq_ok_iff.mp next
    obtain ⟨-, rfl⟩ := time_eq_ok_iff.mp begun
    obtain ⟨-, rfl⟩ := time_eq_ok_iff.mp later
    exact ⟨before, after⟩
  · rintro ⟨before, after⟩
    refine ⟨_, _, _, plus_eq_ok_iff.mpr ⟨?number, rfl⟩, time_eq_ok_iff.mpr ⟨?begun, rfl⟩,
      time_eq_ok_iff.mpr ⟨?later, rfl⟩, before, after⟩
    all_goals
      have before : s.start.nanoseconds ≤ t.nanoseconds := before
      have after : t.nanoseconds < (start ⟨s.number + 1⟩).nanoseconds := after
      simp only [start_nanoseconds, Instant.seconds, Instant.nanosecondsPerSecond,
        Instant.calendar, Bounds.mem_iff, Bounds.int64, secondsPerSlot, genesis,
        Instant.ofSeconds] at early late before after ⊢
      omega

theorem aboutToBegin_ofInstant (before : t < (ofInstant t).start) :
    (ofInstant t).AboutToBegin t := by
  have since : t < genesis := Int.not_le.mp fun reached =>
    Int.not_le_of_gt before (ofInstant_since reached).1
  have left := (ofInstant_before since).1
  refine ⟨_, time_eq_ok_iff.mpr ⟨?date, rfl⟩, ?up, before, left⟩
  case date =>
    have before : t.nanoseconds < (ofInstant t).start.nanoseconds := before
    simp only [Instant.seconds, Instant.nanosecondsPerSecond, Instant.calendar, Bounds.mem_iff,
      secondsPerSlot] at early late left ⊢
    omega
  case up =>
    show (ofInstant t).start.nanoseconds ≤ _
    have since : t.nanoseconds < genesis.nanoseconds := since
    simp only [start_nanoseconds, Instant.nanosecondsPerSecond] at left ⊢
    omega

/-- The slot of a moment is the one under way, just if no slot up to that of genesis is about to
begin. Where one is, that is the slot of the moment. At its own beginning each slot is. -/
theorem ofInstant_underWay_iff :
    ((ofInstant t).UnderWay t ↔ ∀ s : Slot, ¬ s.AboutToBegin t) ∧
      (∀ s : Slot, s.AboutToBegin t → ofInstant t = s) ∧
      ∀ (s : Slot) (begun : Instant), s.time = .ok begun → ofInstant begun = s := by
  refine ⟨?under, fun s => ofInstant_aboutToBegin, ?inverse⟩
  case under =>
    rw [underWay_iff early late]
    constructor
    · rintro ⟨begun, -⟩ s about
      rw [ofInstant_aboutToBegin about] at begun
      obtain ⟨_, time, -, before, -⟩ := about
      obtain ⟨-, rfl⟩ := time_eq_ok_iff.mp time
      exact Int.not_le_of_gt before begun
    · intro settled
      have begun : (ofInstant t).start ≤ t :=
        Int.not_lt.mp fun before => settled _ (aboutToBegin_ofInstant early late before)
      refine ⟨begun, ?_⟩
      by_cases since : genesis ≤ t
      · exact (ofInstant_since since).2
      · have high := (ofInstant_before (Int.not_le.mp since)).2
        exact Int.lt_of_lt_of_le (Int.lt_add_of_pos_right _ (by decide)) high
  case inverse =>
    intro s begun time
    obtain ⟨-, rfl⟩ := time_eq_ok_iff.mp time
    exact ofInstant_start s

end Dated

/-- A nanosecond after the beginning of the last slot before genesis. -/
theorem ofInstant_underWay_iff_early : (Slot.mk (-1)).UnderWay ⟨1606824011000000001⟩ := by
  refine (ofInstant_underWay_iff (t := ⟨1606824011000000001⟩) (by decide) (by decide)).1.mpr ?_
  rintro s ⟨begun, time, -, before, left⟩
  obtain ⟨-, rfl⟩ := time_eq_ok_iff.mp time
  have before : (1606824011000000001 : Int) < s.start.nanoseconds := before
  simp only [start_nanoseconds, genesis, Instant.ofSeconds, Instant.nanosecondsPerSecond]
    at before left
  omega

/-- Half a second before genesis the last slot before it is still under way, but the moment has the
slot of genesis. -/
theorem ofInstant_ahead : ofInstant ⟨1606824022500000000⟩ = ⟨0⟩ ∧
    ¬ (ofInstant ⟨1606824022500000000⟩).UnderWay ⟨1606824022500000000⟩ ∧
    (Slot.mk (-1)).UnderWay ⟨1606824022500000000⟩ := by
  refine ⟨by decide, ?_, ?_⟩
  all_goals
    rw [underWay_iff (by decide) (by decide)]
    decide

end Slot
end ValidatorDays
