import ValidatorDays.Stage.Gate
import ValidatorDays.Tally
/-! Execution layer income. A block that came from a relay earns its proposer the bribe, any
other the fees it collected. -/
namespace ValidatorDays

structure ExecutionRewards where
  fees : Wei
  mev : Wei
  deriving DecidableEq, Repr

namespace ExecutionRewards

def target : Target := statsTarget ["el_rewards_wei", "mev_rewards_wei"]

def row (day : Day) (index : ValidatorIndex) (r : ExecutionRewards) : Row :=
  [.int4 index, .ofDay day, .ofWei r.fees, .ofWei r.mev]

abbrev Bribes := List (BlockHash × Wei)

def unknownBlock (number : BlockNumber) : StageError :=
  .unexpectedValue "execution block" (intText number)
    "indexed blocks, not in the canonical chain for the day"

def addBlock (block : BlockReward) (bribes : Bribes) (r : Option ExecutionRewards) :
    Checked ExecutionRewards := do
  let r := r.getD ⟨.zero, .zero⟩
  let fees ← r.fees.add block.fees
  return ⟨fees, ← r.mev.add ((lastFor? block.hash bribes).getD block.fees)⟩

/-- Rewards by proposer. Every block has to be one of the canonical chain. -/
def byProposer (canonical : List CanonicalBlock) (blocks : List BlockReward) (bribes : Bribes) :
    Outcome (Tally ExecutionRewards) :=
  blocks.foldlM (fun rewards block => do
    match lastFor? block.number (canonical.map fun c => (c.number, c.proposer)) with
    | none => throw (.stage (unknownBlock block.number))
    | some proposer => Tally.change proposer (addBlock block bribes) rewards) []

def rows (day : Day) (rewards : Tally ExecutionRewards) : List Row :=
  rewards.map fun (index, r) => row day index r

def stage (settings : Settings) (day : Day) : Program Unit := do
  ensureDayFinalized day
  let canonical ← readStage (.canonicalBlocks day.epochs)
  let blocks ← askIndexer (.blockRewards (canonical.map (·.number)))
  let bribes ← (Program.relays (blocks.map (·.hash))).mapFailure .asAggregation
  let rewards ← byProposer canonical blocks bribes
  let _ ← mergeRowsTogether target (rows day rewards) settings.upsertBatch
  markExported day .executionRewards

end ExecutionRewards
end ValidatorDays
