import ValidatorDays.Chain.BlockRange
import ValidatorDays.Chain.Day
/-! What the ledger of the chain answers when it is read. -/
namespace ValidatorDays

structure BlockCounts where
  proposer : ValidatorIndex
  proposed : Int
  missed : Int
  orphaned : Int
  deriving DecidableEq, Repr

structure Slashings where
  proposer : ValidatorIndex
  ofAttesters : Int
  ofProposers : Int
  deriving DecidableEq, Repr

/-- Deposits of a validator. Those of the genesis block belong to the day before genesis. -/
structure Deposits where
  index : ValidatorIndex
  day : Day
  count : Int
  amount : Int
  deriving DecidableEq, Repr

structure Withdrawals where
  index : ValidatorIndex
  count : Int
  amount : Int
  deriving DecidableEq, Repr

structure CanonicalBlock where
  slot : Slot
  number : BlockNumber
  proposer : ValidatorIndex
  deriving DecidableEq, Repr

end ValidatorDays
