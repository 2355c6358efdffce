import ValidatorDays.Chart.Indicator
import ValidatorDays.Chart.Stream
import ValidatorDays.Chart.Window
import ValidatorDays.Stage.Gate
/-! The chart series of a day: the indicators of all its execution blocks, written together,
and a mark that the day is done. -/
namespace ValidatorDays

structure ChartPoint where
  time : Instant
  indicator : Indicator
  value : Decimal

namespace ChartPoint

def target : Target := ⟨"chart_series", ["time", "indicator"], ["time", "indicator", "value"]⟩

def row (p : ChartPoint) : Row := [.time p.time, .text p.indicator.name, .numeric p.value]

end ChartPoint

namespace ChartSeries

/-- A slot may have been missed: the first block at or after it stands in for it. -/
def firstBlockFrom (day : Day) (slot : Slot) : Program BlockNumber := do
  match ← readStage (.firstBlockFrom slot) with
  | some block => return block
  | none =>
    .fail (.stage (.unexpectedValue "missing execution block" slot.text
      ("no canonical block at or after the slot, chart day " ++ day.text)))

def noBlocks (day : Day) (first stop : BlockNumber) : StageError :=
  .unexpectedValue "block range" (intText first ++ "-" ++ intText stop)
    ("chart day " ++ day.text ++ " spans no blocks")

def blocksOf (settings : Settings) (window : ChartWindow) : Program BlockRange := do
  let first ← firstBlockFrom window.day window.firstSlot
  if first ≤ settings.activationBlock then
    .fail (.stage (.beforeActivation window.day first settings.activationBlock))
  else
    let stop ← firstBlockFrom window.day window.endSlot
    if stop ≤ first then .fail (.stage (noBlocks window.day first stop))
    else BlockRange.make first (← Bounds.int64.check (stop - 1))

def lastEmission (before : Instant) : Program Decimal :=
  return (← Program.query (.lastEmission before)).getD 0

/-- The three numbers that go with the blocks are read at the same time. -/
def numbers (day : Day) (time : Instant) : Program (Decimal × Gwei × Decimal) :=
  ((Program.price "USD").mapFailure .asAggregation).both
    ((readStage (.rewardsSum day)).both ((lastEmission time).mapFailure .asStage))

def points (window : ChartWindow) (inputs : ChartInputs) : Checked (List ChartPoint) :=
  return (← inputs.values).map fun (indicator, value) => ⟨window.time, indicator, value⟩

def write (settings : Settings) (day : Day) : Program (List ChartPoint) := do
  let window ← ChartWindow.ofDay day
  ensureEpochsFinalized day window.epochs
  let blocks ← blocksOf settings window
  let totals ← BlockStream.totals blocks settings.chartBlocks
  let _ ← (statusOf day).mapFailure .asStage
  let (price, rewards, emission) ← numbers day window.time
  let points ← points window ⟨totals, rewards, emission, price, settings.genesisSupplyEth⟩
  let _ ← mergeRowsTogether ChartPoint.target (points.map ChartPoint.row) settings.upsertBatch
  writeStage (.markChartDay day)
  return points

end ChartSeries
end ValidatorDays
