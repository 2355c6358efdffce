import ValidatorDays.Chain.BlockRange
import ValidatorDays.Decimal.Basic
import ValidatorDays.Text.Span
/-! What can be tuned. Nothing here changes what ends up in a table, except that the
activation block decides which days have chart series at all. -/
namespace ValidatorDays

structure Settings where
  upsertBatch : Nat
  syncDutiesBatch : Nat
  attestationEpochs : Int
  performanceBatch : Nat
  deadline : Span
  concurrency : Nat
  chartBlocks : Int
  /-- A day that starts at this block or before it has no chart series. -/
  activationBlock : BlockNumber
  genesisSupplyEth : Decimal

namespace Settings

def standard : Settings where
  upsertBatch := 100
  syncDutiesBatch := 13000
  attestationEpochs := 2
  performanceBatch := 1000
  deadline := .ofSeconds 600
  concurrency := 8
  chartBlocks := 360
  activationBlock := mergeBlock
  genesisSupplyEth := ⟨7200999050, 2⟩

instance : Inhabited Settings := ⟨standard⟩

end Settings
end ValidatorDays
