import ValidatorDays.Chart.Window
import ValidatorDays.Proofs.Chain.Days
import ValidatorDays.Proofs.Chain.Moments
/-! The window of a chart day. Its points are filed under the midnight before the day of statistics
begins, so later days have later moments. There is a window just if the calendar has a date for
both. -/
namespace ValidatorDays

/-- Midnight of the date on which genesis lies, in seconds since 1970. -/
def genesisMidnight : Int := 1606780800

def Day.midnight (day : Day) : Instant :=
  .ofSeconds (genesisMidnight + day.number * Instant.secondsPerDay)

theorem Day.midnight_lt {day other : Day} : day.midnight < other.midnight ↔ day < other := by
  show day.midnight.nanoseconds < other.midnight.nanoseconds ↔ day.number < other.number
  simp only [midnight, Instant.ofSeconds, Instant.nanosecondsPerSecond, Instant.secondsPerDay]
  omega

theorem Day.midnight_inj {day other : Day} : day.midnight = other.midnight ↔ day = other := by
  refine ⟨fun same => number_inj.mp ?_, congrArg midnight⟩
  have same := congrArg Instant.nanoseconds same
  simp only [midnight, Instant.ofSeconds, Instant.nanosecondsPerSecond,
    Instant.secondsPerDay] at same
  omega

theorem Instant.midnight_secondsSince (day : Day) :
    day.midnight.secondsSince genesis = day.number * secondsPerDay - 43223 := by
  have whole : day.midnight.nanoseconds - genesis.nanoseconds =
      (day.number * secondsPerDay - 43223) * nanosecondsPerSecond := by
    simp only [Day.midnight, genesis, genesisMidnight, ofSeconds, nanosecondsPerSecond]
    omega
  rw [secondsSince, whole]
  exact Int.mul_tdiv_cancel _ (by decide)

/-- The calendar has a date for the beginning of the day, and for the midnight before. -/
structure Day.Dated (day : Day) : Prop where
  start : day.epochs.first.start.seconds ∈ Instant.calendar
  midnight : day.midnight.seconds ∈ Instant.calendar

/-- From midnight to genesis there are 112 epochs and a part of one. -/
def Day.window (day : Day) : ChartWindow where
  day := day
  time := day.midnight
  firstSlot := ⟨(epochsPerDay * day.number - 113) * slotsPerEpoch⟩
  endSlot := ⟨(epochsPerDay * (day.number + 1) - 113) * slotsPerEpoch⟩
  epochs := ⟨⟨epochsPerDay * day.number - 113⟩, ⟨epochsPerDay * (day.number + 1) - 114⟩⟩

theorem Day.start_seconds (day : Day) :
    day.epochs.first.start.seconds = 1606824023 + day.number * 86400 := by
  rw [Epoch.start, Slot.start_seconds]
  simp only [epochs, epochsPerDay, slotsPerEpoch]
  omega

theorem Day.midnight_seconds (day : Day) :
    day.midnight.seconds = 1606780800 + day.number * 86400 := by
  simp only [midnight, Instant.seconds, Instant.ofSeconds, Instant.nanosecondsPerSecond,
    genesisMidnight, Instant.secondsPerDay]
  omega

theorem Day.dated_iff {day : Day} :
    day.Dated ↔ -96483889 ≤ day.number ∧ day.number ≤ 95007639 := by
  constructor
  · rintro ⟨start, midnight⟩
    simp only [Day.start_seconds, Day.midnight_seconds, Bounds.mem_iff,
      Instant.calendar] at start midnight
    omega
  · rintro ⟨low, high⟩
    constructor
    · simp only [Day.start_seconds, Bounds.mem_iff, Instant.calendar]
      omega
    · simp only [Day.midnight_seconds, Bounds.mem_iff, Instant.calendar]
      omega

theorem Day.midnight_eq_ok_iff {day : Day} {time : Instant} :
    day.epochs.first.start.later
        (-(day.epochs.first.start.seconds % Instant.secondsPerDay)) = .ok time ↔
      day.midnight.seconds ∈ Instant.calendar ∧ time = day.midnight := by
  have back : -(day.epochs.first.start.seconds % Instant.secondsPerDay) = -43223 := by
    rw [Day.start_seconds, Instant.secondsPerDay]
    omega
  have same : day.epochs.first.start.nanoseconds + -43223 * Instant.nanosecondsPerSecond =
      day.midnight.nanoseconds := by
    simp only [midnight, Epoch.start, Slot.start, epochs, ValidatorDays.genesis, Instant.ofSeconds,
      Instant.nanosecondsPerSecond, genesisMidnight, Instant.secondsPerDay, epochsPerDay,
      slotsPerEpoch, secondsPerSlot]
    omega
  have date : day.epochs.first.start.seconds + -43223 = day.midnight.seconds := by
    rw [Day.start_seconds, Day.midnight_seconds]
    omega
  rw [Instant.later_eq_ok_iff, back, date, same]
  have near : (-43223 : Int) ∈ Instant.span := by decide
  simp only [near, true_and]

theorem Day.midnight_epoch (day : Day) :
    (Slot.ofInstant day.midnight).epoch = ⟨epochsPerDay * day.number - 113⟩ := by
  rw [Slot.ofInstant, Instant.midnight_secondsSince]
  simp only [Slot.epoch, Instant.secondsPerDay, secondsPerSlot, slotsPerEpoch, epochsPerDay,
    Epoch.mk.injEq]
  omega

namespace ChartWindow

def around (day : Day) (time : Instant) : Checked ChartWindow := do
  let firstEpoch := (Slot.ofInstant time).epoch
  let firstSlot ← firstEpoch.firstSlot
  let endSlot ← firstSlot.plus (epochsPerDay * slotsPerEpoch)
  let epochs ← EpochRange.make firstEpoch (← firstEpoch.plus (epochsPerDay - 1))
  return ⟨day, time, firstSlot, endSlot, epochs⟩

theorem around_midnight {day : Day} (dated : day.Dated) :
    around day day.midnight = .ok day.window := by
  obtain ⟨low, high⟩ := Day.dated_iff.mp dated
  have starts : Epoch.firstSlot ⟨epochsPerDay * day.number - 113⟩ = .ok day.window.firstSlot := by
    refine Epoch.firstSlot_eq_ok_iff.mpr ⟨?_, rfl⟩
    simp only [Bounds.mem_iff, Bounds.int64, epochsPerDay, slotsPerEpoch]
    omega
  have ends : day.window.firstSlot.plus (epochsPerDay * slotsPerEpoch) =
      .ok day.window.endSlot := by
    rw [Slot.plus_eq_ok_iff]
    simp only [Bounds.mem_iff, Bounds.int64, Day.window, epochsPerDay, slotsPerEpoch, Slot.mk.injEq]
    omega
  have lasts : Epoch.plus ⟨epochsPerDay * day.number - 113⟩ (epochsPerDay - 1) =
      .ok day.window.epochs.last := by
    rw [Epoch.plus_eq_ok_iff]
    simp only [Bounds.mem_iff, Bounds.int64, Day.window, epochsPerDay, Epoch.mk.injEq]
    omega
  have range : EpochRange.make ⟨epochsPerDay * day.number - 113⟩ day.window.epochs.last =
      .ok day.window.epochs := by
    refine if_neg ?_
    show ¬ (epochsPerDay * (day.number + 1) - 114 < epochsPerDay * day.number - 113)
    simp only [epochsPerDay]
    omega
  simp only [around, Day.midnight_epoch, bind_eq_ok]
  exact ⟨_, starts, _, ends, _, lasts, _, range, rfl⟩

theorem ofDay_eq_ok_iff {day : Day} {window : ChartWindow} :
    ofDay day = .ok window ↔ day.Dated ∧ window = day.window := by
  have apart : ofDay day = .ok window ↔ ∃ begin, day.epochs.first.time = .ok begin ∧
      ∃ time, begin.later (-(begin.seconds % Instant.secondsPerDay)) = .ok time ∧
        around day time = .ok window := by
    simp only [← bind_eq_ok]
    rfl
  simp only [apart, Epoch.time_eq_ok_iff]
  constructor
  · rintro ⟨_, ⟨start, rfl⟩, time, moved, made⟩
    obtain ⟨midnight, rfl⟩ := Day.midnight_eq_ok_iff.mp moved
    have dated : day.Dated := ⟨start, midnight⟩
    rw [around_midnight dated] at made
    exact ⟨dated, (Except.ok.inj made).symm⟩
  · rintro ⟨dated, rfl⟩
    exact ⟨_, ⟨dated.start, rfl⟩, _, Day.midnight_eq_ok_iff.mpr ⟨dated.midnight, rfl⟩,
      around_midnight dated⟩

end ChartWindow

/-- A window is as long as a day, and it ends where the window of the next day begins. Its first
slot is that of an epoch. -/
theorem ChartWindow.ofDay_eq_ok {day : Day} {window : ChartWindow}
    (made : ChartWindow.ofDay day = .ok window) :
    window.day = day ∧ window.time = day.midnight ∧
      window.firstSlot.number = 7200 * day.number - 3616 ∧
      window.endSlot.number = 7200 * (day.number + 1) - 3616 := by
  obtain ⟨-, rfl⟩ := ofDay_eq_ok_iff.mp made
  refine ⟨rfl, rfl, ?_, ?_⟩
  all_goals
    simp only [Day.window, slotsPerEpoch, epochsPerDay]
    omega

theorem ChartWindow.endSlot_eq {day next : Day} {window following : ChartWindow}
    (made : ChartWindow.ofDay day = .ok window) (madeToo : ChartWindow.ofDay next = .ok following)
    (follows : next.number = day.number + 1) : window.endSlot = following.firstSlot := by
  obtain ⟨-, -, -, ends⟩ := ofDay_eq_ok made
  obtain ⟨-, -, starts, -⟩ := ofDay_eq_ok madeToo
  have same : window.endSlot.number = following.firstSlot.number := by
    rw [ends, starts, follows]
  cases ended : window.endSlot
  cases started : following.firstSlot
  rw [ended, started] at same
  exact congrArg Slot.mk same

end ValidatorDays
