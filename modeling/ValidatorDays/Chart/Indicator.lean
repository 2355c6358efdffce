import ValidatorDays.Chart.Totals

namespace ValidatorDays

inductive Indicator where
  | burnedFees
  | nonFailedGas
  | blockCount
  | averageBlockTime
  | totalEmission
  | averageGasPrice
  | averageGasUsed
  | totalGasUsed
  | averageGasLimit
  | averageUtilisation
  | marketCap
  | transactionCount
  deriving DecidableEq, Repr

namespace Indicator

def name : Indicator → String
  | .burnedFees => "BURNED_FEES"
  | .nonFailedGas => "NON_FAILED_TX_GAS_USAGE"
  | .blockCount => "BLOCK_COUNT"
  | .averageBlockTime => "BLOCK_TIME_AVG"
  | .totalEmission => "TOTAL_EMISSION"
  | .averageGasPrice => "AVG_GASPRICE"
  | .averageGasUsed => "AVG_GASUSED"
  | .totalGasUsed => "TOTAL_GASUSED"
  | .averageGasLimit => "AVG_GASLIMIT"
  | .averageUtilisation => "AVG_BLOCK_UTIL"
  | .marketCap => "MARKET_CAP"
  | .transactionCount => "TX_COUNT"

end Indicator

structure ChartInputs where
  totals : BlockTotals
  consensusRewards : Gwei
  previousEmission : Decimal
  ethPriceUsd : Decimal
  genesisSupplyEth : Decimal

abbrev IndicatorValue := Indicator × Decimal

namespace ChartInputs

/-- What the day added to the supply, in wei: consensus income and tips, less what burned. -/
def dayEmission (inputs : ChartInputs) : Decimal :=
  inputs.consensusRewards.toWei.toDecimal + inputs.totals.tips - inputs.totals.burned

def totalEmission (inputs : ChartInputs) : Decimal := inputs.previousEmission + inputs.dayEmission

def marketCap (inputs : ChartInputs) : Checked Decimal := do
  let emissionEth ← inputs.totalEmission / Decimal.ofInt weiPerEth
  return (emissionEth + inputs.genesisSupplyEth) * inputs.ethPriceUsd

def always (inputs : ChartInputs) : Checked (List IndicatorValue) :=
  return [(.burnedFees, inputs.totals.burned),
    (.nonFailedGas, inputs.totals.nonFailedGasUsed),
    (.blockCount, .ofInt inputs.totals.blockCount),
    (.averageBlockTime, ← inputs.totals.averageBlockTime),
    (.totalEmission, inputs.totalEmission),
    (.totalGasUsed, inputs.totals.gasUsed),
    (.marketCap, ← inputs.marketCap),
    (.transactionCount, .ofInt inputs.totals.txCount)]

def averageGasPrice (t : BlockTotals) : Checked (List IndicatorValue) := do
  if !t.gasPrice.isZero && 0 < t.gasPriceTxCount then
    return [(.averageGasPrice, ← t.gasPrice / Decimal.ofInt t.gasPriceTxCount)]
  else return []

/-- Asked for by the transactions, but divided by the blocks. -/
def averageGasUsed (t : BlockTotals) : Checked (List IndicatorValue) := do
  if 0 < t.txCount then return [(.averageGasUsed, ← t.gasUsed / Decimal.ofInt t.blockCount)]
  else return []

def averageGasLimit (t : BlockTotals) : Checked (List IndicatorValue) := do
  if 0 < t.blockCount then return [(.averageGasLimit, ← t.gasLimit / Decimal.ofInt t.blockCount)]
  else return []

def averageUtilisation (t : BlockTotals) : Checked (List IndicatorValue) := do
  if t.gasLimit.isZero then return []
  else return [(.averageUtilisation, (← t.gasUsed / t.gasLimit) * 100)]

/-- An average only comes where there is something to take it of. -/
def values (inputs : ChartInputs) : Checked (List IndicatorValue) :=
  return (← inputs.always) ++ (← averageGasPrice inputs.totals) ++
    (← averageGasUsed inputs.totals) ++ (← averageGasLimit inputs.totals) ++
    (← averageUtilisation inputs.totals)

end ChartInputs
end ValidatorDays
