/-! The categories of statistics, in the order in which a day is exported. -/
namespace ValidatorDays

inductive Category where
  | failedAttestations
  | syncDuties
  | withdrawalsDeposits
  | blockStats
  | balance
  | consensusRewards
  | executionRewards
  | totalPerformance
  deriving DecidableEq, Repr

namespace Category

/-- Every category comes after those it needs. -/
def all : List Category :=
  [.failedAttestations, .syncDuties, .withdrawalsDeposits, .blockStats, .balance,
    .consensusRewards, .executionRewards, .totalPerformance]

theorem mem_all (c : Category) : c ∈ all := by cases c <;> decide

def column : Category → String
  | .failedAttestations => "failed_attestations_exported"
  | .syncDuties => "sync_duties_exported"
  | .withdrawalsDeposits => "withdrawals_deposits_exported"
  | .blockStats => "block_stats_exported"
  | .balance => "balance_exported"
  | .consensusRewards => "cl_rewards_exported"
  | .executionRewards => "el_rewards_exported"
  | .totalPerformance => "total_performance_exported"

def ofColumn? (name : String) : Option Category := all.find? (·.column = name)

end Category
end ValidatorDays
