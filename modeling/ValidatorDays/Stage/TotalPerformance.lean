import ValidatorDays.Stage.Gate
/-! Totals since genesis, and the performance of validators over windows of days. The total
of a day is its reward and the total of the day before. -/
namespace ValidatorDays.TotalPerformance

def requirements (day : Day) : Checked Requirements := do
  let previous ← day.previous
  return [(day, .consensusRewards), (day, .executionRewards), (previous, .consensusRewards),
    (previous, .executionRewards)]

/-- A snapshot is taken of totals that are there already. -/
def job (day : Day) (range : IndexRange) : Job Write :=
  ⟨.cumulativeTotals day range, [.performanceSnapshot day range]⟩

def stage (settings : Settings) (day : Day) : Program Unit := do
  ensureDayFinalized day
  ensureExported day (← requirements day)
  let count ← readStage .validatorCount
  let ranges := IndexRange.split count settings.performanceBatch
  let _ ← (settings.group "total_performance").run .writes (ranges.map (job day))
  writeStage .rankPerformance
  markExported day .totalPerformance

end ValidatorDays.TotalPerformance
