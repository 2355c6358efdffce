import ValidatorDays.Chain.Day
/-! The window of a chart day. Chart points are filed under calendar dates: the window
starts with the epoch that is under way at midnight of the date on which the day of
statistics begins, and is as long as a day of statistics. -/
namespace ValidatorDays

structure ChartWindow where
  day : Day
  time : Instant
  firstSlot : Slot
  endSlot : Slot
  epochs : EpochRange
  deriving DecidableEq, Repr

def ChartWindow.ofDay (day : Day) : Checked ChartWindow := do
  let begin ← day.epochs.first.time
  let time ← begin.later (-(begin.seconds % Instant.secondsPerDay))
  let firstEpoch := (Slot.ofInstant time).epoch
  let firstSlot ← firstEpoch.firstSlot
  let endSlot ← firstSlot.plus (epochsPerDay * slotsPerEpoch)
  let epochs ← EpochRange.make firstEpoch (← firstEpoch.plus (epochsPerDay - 1))
  return ⟨day, time, firstSlot, endSlot, epochs⟩

end ValidatorDays
