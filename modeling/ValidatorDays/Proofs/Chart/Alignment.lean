import ValidatorDays.Proofs.Chain.Tiles
import ValidatorDays.Proofs.Chart.Window
import ValidatorDays.Proofs.Stage.Finality

namespace ValidatorDays

open Program

/-- The day and those after it, so many together. -/
def Day.onward (day : Day) : ℕ → List Day
  | 0 => []
  | n + 1 => day :: onward ⟨day.number + 1⟩ n

theorem Day.mem_onward {day other : Day} {n : ℕ} :
    other ∈ day.onward n ↔ day.number ≤ other.number ∧ other.number < day.number + n := by
  induction n generalizing day with
  | zero => exact iff_of_false List.not_mem_nil (by omega)
  | succ n ih =>
    rw [onward, List.mem_cons, ih, ← number_inj]
    push_cast
    omega

namespace ChartWindow

def stretch (window : ChartWindow) : Stretch := (window.firstSlot.number, window.endSlot.number)

/-- How a window lies. It begins with the epoch that is under way at its midnight, and it has as
many epochs as a day. Its first slot has no time if its midnight is the first of the calendar. -/
structure Aligned (window : ChartWindow) : Prop where
  midnight : ∃ date : Int, window.time = .ofSeconds (date * Instant.secondsPerDay)
  boundary : window.firstSlot.isFirstOfEpoch = true
  begun : window.firstSlot.start ≤ window.time
  told : window.time = .ofSeconds Instant.calendar.least ∨
    window.firstSlot.time = .ok window.firstSlot.start
  underWay : ∃ next begin, window.firstSlot.plus slotsPerEpoch = .ok next ∧
    next.time = .ok begin ∧ window.time < begin
  length : window.epochs.length = .ok epochsPerDay
  slots : window.epochs.slots = .ok (window.firstSlot, window.endSlot)

theorem length_window (day : Day) : day.window.epochs.length = .ok epochsPerDay := by
  have between : day.window.epochs.last.number - day.window.epochs.first.number = 224 := by
    simp only [Day.window, epochsPerDay]
    omega
  rw [EpochRange.length, between]
  rfl

theorem start_window (day : Day) : day.window.firstSlot.start.nanoseconds =
    day.midnight.nanoseconds - 169 * Instant.nanosecondsPerSecond := by
  simp only [Day.window, Day.midnight, Instant.ofSeconds, Slot.start, genesis, genesisMidnight,
    Instant.nanosecondsPerSecond, Instant.secondsPerDay, epochsPerDay, slotsPerEpoch,
    secondsPerSlot]
  omega

section Lies

variable {day : Day} (dated : day.Dated)
include dated

theorem told_window : day.window.time = .ofSeconds Instant.calendar.least ∨
    day.window.firstSlot.time = .ok day.window.firstSlot.start := by
  obtain ⟨low, high⟩ := Day.dated_iff.mp dated
  by_cases earliest : day.number = -96483889
  · refine .inl ?_
    rw [Day.window, Day.midnight, earliest]
    rfl
  · refine .inr (Slot.time_eq_ok_iff.mpr ⟨?_, rfl⟩)
    simp only [Slot.start_seconds, Day.window, Bounds.mem_iff, Instant.calendar, epochsPerDay,
      slotsPerEpoch]
    omega

theorem underWay_window : ∃ next begin, day.window.firstSlot.plus slotsPerEpoch = .ok next ∧
    next.time = .ok begin ∧ day.window.time < begin := by
  obtain ⟨low, high⟩ := Day.dated_iff.mp dated
  refine ⟨_, _, Slot.plus_eq_ok_iff.mpr ⟨?inside, rfl⟩, Slot.time_eq_ok_iff.mpr ⟨?date, rfl⟩, ?_⟩
  case inside =>
    simp only [Day.window, Bounds.mem_iff, Bounds.int64, epochsPerDay, slotsPerEpoch]
    omega
  case date =>
    simp only [Slot.start_seconds, Day.window, Bounds.mem_iff, Instant.calendar, epochsPerDay,
      slotsPerEpoch]
    omega
  have starts := start_window day
  show day.midnight.nanoseconds < (Slot.start _).nanoseconds
  simp only [Slot.start, secondsPerSlot, Instant.nanosecondsPerSecond, slotsPerEpoch] at starts ⊢
  omega

theorem slots_window :
    day.window.epochs.slots = .ok (day.window.firstSlot, day.window.endSlot) := by
  obtain ⟨low, high⟩ := Day.dated_iff.mp dated
  have starts : day.window.epochs.first.firstSlot = .ok day.window.firstSlot := by
    refine Epoch.firstSlot_eq_ok_iff.mpr ⟨?_, rfl⟩
    simp only [Day.window, Bounds.mem_iff, Bounds.int64, epochsPerDay, slotsPerEpoch]
    omega
  have follows : day.window.epochs.last.plus 1 = .ok ⟨epochsPerDay * (day.number + 1) - 113⟩ := by
    rw [Epoch.plus_eq_ok_iff]
    simp only [Day.window, Bounds.mem_iff, Bounds.int64, epochsPerDay, Epoch.mk.injEq]
    omega
  have ends : Epoch.firstSlot ⟨epochsPerDay * (day.number + 1) - 113⟩ =
      .ok day.window.endSlot := by
    refine Epoch.firstSlot_eq_ok_iff.mpr ⟨?_, rfl⟩
    simp only [Bounds.mem_iff, Bounds.int64, epochsPerDay, slotsPerEpoch]
    omega
  simp only [EpochRange.slots, bind_eq_ok]
  exact ⟨_, starts, _, follows, _, ends, rfl⟩

theorem aligned_window : day.window.Aligned where
  midnight := ⟨day.number + 18597, by
    simp only [Day.window, Day.midnight, genesisMidnight, Instant.secondsPerDay]
    congr 1
    omega⟩
  boundary := by
    simp only [Slot.isFirstOfEpoch, Day.window, Int.mul_tmod_left]
    rfl
  begun := by
    show day.window.firstSlot.start.nanoseconds ≤ day.midnight.nanoseconds
    rw [start_window, Instant.nanosecondsPerSecond]
    omega
  told := told_window dated
  underWay := underWay_window dated
  length := length_window day
  slots := slots_window dated

end Lies

theorem tiles_onward {day last : Day} {n : ℕ} (reached : last.number = day.number + n) :
    Tiles (epochsPerDay * slotsPerEpoch) day.window.firstSlot.number
      ((day.onward n).map fun d => d.window.stretch) last.window.firstSlot.number := by
  induction n generalizing day with
  | zero =>
    obtain rfl := Day.number_inj.mp (reached.trans (Int.add_zero _))
    exact .nil _
  | succ n ih =>
    have onward : last.number = (Day.mk (day.number + 1)).number + n := by
      rw [reached, Int.natCast_succ, ← Int.add_assoc, Int.add_right_comm]
    have others := ih onward
    refine .cons ?proper ?narrow others
    all_goals
      simp only [Day.window, epochsPerDay, slotsPerEpoch]
      omega

theorem mapM_onward {day last : Day} {n : ℕ} (reached : last.number = day.number + n)
    (dated : day.Dated) (datedToo : last.Dated) :
    (day.onward (n + 1)).mapM ofDay = .ok ((day.onward (n + 1)).map Day.window) := by
  apply mapM_found
  intro d member
  obtain ⟨after, before⟩ := Day.mem_onward.mp member
  refine ofDay_eq_ok_iff.mpr ⟨Day.dated_iff.mpr ?_, rfl⟩
  have := Day.dated_iff.mp dated
  have := Day.dated_iff.mp datedToo
  push_cast at before
  omega

/-- From the first day after genesis on, the epochs of a window lie between genesis and the end of
the day. -/
theorem finalized_window {day : Day} (after : 1 ≤ day.number) {final : Finset Epoch}
    (passed : ∀ epoch : Epoch, 0 ≤ epoch.number → epoch ≤ day.epochs.last → epoch ∈ final) :
    day.window.epochs.finalized final = epochsPerDay := by
  have forward : day.window.epochs.first ≤ day.window.epochs.last := by
    show epochsPerDay * day.number - 113 ≤ epochsPerDay * (day.number + 1) - 114
    simp only [epochsPerDay]
    omega
  have all : ∀ epoch ∈ day.window.epochs, epoch ∈ final := by
    rintro epoch ⟨low, high⟩
    have low : epochsPerDay * day.number - 113 ≤ epoch.number := low
    have high : epoch.number ≤ epochsPerDay * (day.number + 1) - 114 := high
    simp only [epochsPerDay] at low high
    apply passed epoch (by omega)
    show epoch.number ≤ day.number * epochsPerDay + (epochsPerDay - 1)
    simp only [epochsPerDay]
    omega
  rw [(EpochRange.finalized_eq_iff forward).mpr all]
  simp only [Day.window, epochsPerDay]
  omega

theorem midnight_later {day next : Day} (follows : next.number = day.number + 1)
    (date : next.midnight.seconds ∈ Instant.calendar) :
    day.midnight.later Instant.secondsPerDay = .ok next.midnight := by
  have seconds : day.midnight.seconds + Instant.secondsPerDay = next.midnight.seconds := by
    rw [Day.midnight_seconds, Day.midnight_seconds, follows, Instant.secondsPerDay]
    omega
  refine Instant.later_eq_ok_iff.mpr ⟨⟨by decide, seconds ▸ date⟩, ?_⟩
  simp only [Day.midnight, Instant.ofSeconds, follows, Instant.secondsPerDay,
    Instant.nanosecondsPerSecond, Instant.mk.injEq]
  omega

/-- Two days that follow each other, and their windows, where the calendar has the dates. -/
theorem ofDay_aligned {day next : Day} (follows : next.number = day.number + 1)
    (dated : day.Dated) (datedToo : next.Dated) :
    ∃ window following, ofDay day = .ok window ∧ ofDay next = .ok following ∧
      window.Aligned ∧ window.time.later Instant.secondsPerDay = .ok following.time ∧
      window.endSlot = following.firstSlot ∧
      (∀ (n : ℕ) (last : ChartWindow), ofDay ⟨day.number + n⟩ = .ok last →
        ∃ windows, (day.onward (n + 1)).mapM ofDay = .ok windows ∧
          Tiles (epochsPerDay * slotsPerEpoch) window.firstSlot.number (windows.map stretch)
            last.endSlot.number) ∧
      window.epochs.last < day.epochs.last ∧
      (1 ≤ day.number → ∀ final : Finset Epoch,
        (∀ epoch : Epoch, 0 ≤ epoch.number → epoch ≤ day.epochs.last → epoch ∈ final) →
        Runs (ensureEpochsFinalized day window.epochs)
          [⟨.query (.finalizedEpochs window.epochs), .ok (window.epochs.finalized final)⟩]
          (.ok ())) := by
  have made : ofDay day = .ok day.window := ofDay_eq_ok_iff.mpr ⟨dated, rfl⟩
  have madeToo : ofDay next = .ok next.window := ofDay_eq_ok_iff.mpr ⟨datedToo, rfl⟩
  refine ⟨_, _, made, madeToo, aligned_window dated, ?later, endSlot_eq made madeToo follows,
    ?tiles, ?before, ?gate⟩
  case later => exact midnight_later follows datedToo.midnight
  case tiles =>
    intro n last made
    obtain ⟨datedLast, rfl⟩ := ofDay_eq_ok_iff.mp made
    refine ⟨_, mapM_onward rfl dated datedLast, ?_⟩
    rw [List.map_map]
    have reached : (Day.mk (day.number + n + 1)).number = day.number + (n + 1 : ℕ) := by
      push_cast
      omega
    exact tiles_onward reached
  case before =>
    show epochsPerDay * (day.number + 1) - 114 < day.number * epochsPerDay + (epochsPerDay - 1)
    simp only [epochsPerDay]
    omega
  case gate =>
    intro after final passed
    exact ensureEpochsFinalized_counted.mpr (finalized_window after passed).ge

theorem ofDay_aligned_thousandth : ∃ window, ofDay ⟨1000⟩ = .ok window ∧
    window.time = .ofSeconds 1693180800 ∧ window.firstSlot = ⟨7196384⟩ ∧ window.Aligned ∧
    window.epochs.last < (Day.mk 1000).epochs.last := by
  obtain ⟨window, following, made, -, aligned, -, -, -, before, -⟩ :=
    @ofDay_aligned ⟨1000⟩ ⟨1001⟩ rfl ⟨by decide, by decide⟩ ⟨by decide, by decide⟩
  obtain ⟨-, rfl⟩ := ofDay_eq_ok_iff.mp made
  exact ⟨_, made, rfl, rfl, aligned, before⟩

end ChartWindow
end ValidatorDays
