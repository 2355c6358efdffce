import ValidatorDays.Amount.Basic
import ValidatorDays.Chain.BlockRange
import ValidatorDays.Chain.Slot
/-! What the indexer knows: balances, duties and income of validators over a range of
epochs, and whole execution blocks. -/
namespace ValidatorDays

structure BalanceSummary where
  index : ValidatorIndex
  minimum : Gwei
  maximum : Gwei
  minimumEffective : Gwei
  maximumEffective : Gwei
  start : Gwei
  startEffective : Gwei
  stop : Gwei
  stopEffective : Gwei
  deriving DecidableEq, Repr

structure SyncDuties where
  index : ValidatorIndex
  participated : Int
  missed : Int
  orphaned : Int
  deriving DecidableEq, Repr

structure FailedAttestations where
  index : ValidatorIndex
  missed : Int
  orphaned : Int
  deriving DecidableEq, Repr

structure ProposerIncome where
  index : ValidatorIndex
  attestations : Gwei
  slashings : Gwei
  syncDuties : Gwei
  deriving DecidableEq, Repr

namespace ProposerIncome

def total (income : ProposerIncome) : Checked Gwei := do
  (← income.attestations.add income.slashings).add income.syncDuties

end ProposerIncome

structure BlockReward where
  number : BlockNumber
  hash : BlockHash
  fees : Wei
  deriving DecidableEq, Repr

structure Transaction where
  hash : String
  kind : Int
  status : Int
  gasUsed : Int
  gasPrice : Wei
  maxFeePerGas : Wei
  maxPriorityFeePerGas : Wei
  deriving DecidableEq, Repr

structure Block where
  number : BlockNumber
  hash : BlockHash
  timestamp : Int
  baseFeePerGas : Wei
  gasLimit : Int
  transactions : List Transaction
  deriving DecidableEq, Repr

structure ValidatorBalance where
  index : ValidatorIndex
  balance : Gwei
  deriving DecidableEq, Repr

end ValidatorDays
