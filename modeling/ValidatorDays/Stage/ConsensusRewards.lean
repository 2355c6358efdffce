import ValidatorDays.Stage.Gate
import ValidatorDays.Tally
/-! Consensus layer income. What a proposer earned for its blocks comes from the indexer; the
whole income of a day is derived from what other stages stored, the change of the balance
less the money that moved. -/
namespace ValidatorDays.ConsensusRewards

def target : Target := statsTarget ["cl_proposer_rewards_gwei"]

def row (day : Day) (index : ValidatorIndex) (rewards : Gwei) : Row :=
  [.int4 index, .ofDay day, .ofGwei rewards]

/-- On genesis there is no day before. -/
def requirements (day : Day) : Checked Requirements := do
  if Day.genesis < day then
    let previous ← day.previous
    return [(day, .balance), (day, .withdrawalsDeposits), (previous, .balance),
      (previous, .withdrawalsDeposits)]
  else return [(day, .balance), (day, .withdrawalsDeposits)]

/-- What proposers earned, by index. Of two incomes of one proposer the later counts. -/
abbrev Rewards := List (ValidatorIndex × Gwei)

def rewardsOf (incomes : List ProposerIncome) : Checked Rewards :=
  incomes.mapM fun income => return (income.index, ← income.total)

def proposerCount (rewards : Rewards) : Checked Int :=
  match rewards.map (·.1) with
  | [] => return 0
  | first :: rest => Bounds.int32.check (rest.foldl max first + 1)

/-- A row for every index of the range; who proposed nothing gets zero. -/
def rows (day : Day) (range : IndexRange) (rewards : Rewards) : List Row :=
  range.indices.map fun index => row day index ((lastFor? index rewards).getD .zero)

/-- The rewards of a range have to be there before its income is derived. -/
def job (day : Day) (rewards : Rewards) (range : IndexRange) : Except StageError (Job Write) := do
  let rows := rows day range rewards
  let batches ← Batch.plan target rows rows.length
  return .ending (batches.map .merge) (.deriveRewards day range)

def stage (settings : Settings) (day : Day) : Program Unit := do
  ensureDayFinalized day
  ensureExported day (← requirements day)
  let incomes ← askIndexer (.proposerIncome day.epochs)
  let rewards ← rewardsOf incomes
  let proposers ← proposerCount rewards
  let known ← readStage .validatorCount
  let ranges := IndexRange.split (max known proposers) settings.upsertBatch
  let jobs ← (ranges.mapM (job day rewards) : Except StageError (List (Job Write)))
  let _ ← (settings.group "cl_rewards").run .writes jobs
  markExported day .consensusRewards

end ValidatorDays.ConsensusRewards
