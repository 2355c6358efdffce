import ValidatorDays.Stage.Gate
/-! Deposits and withdrawals. The balance shows them one epoch after the block that holds
them, so they are read over the epochs of the day, shifted back by one. -/
namespace ValidatorDays

namespace Deposits

def target : Target := statsTarget ["deposits", "deposits_amount"]

def row (d : Deposits) : Row := [.int4 d.index, .ofDay d.day, .int4 d.count, .int8 d.amount]

end Deposits

namespace Withdrawals

def target : Target := statsTarget ["withdrawals", "withdrawals_amount"]

def row (day : Day) (w : Withdrawals) : Row :=
  [.int4 w.index, .ofDay day, .int4 w.count, .int8 w.amount]

end Withdrawals

namespace Transfers

def stage (settings : Settings) (day : Day) : Program Unit := do
  ensureDayFinalized day
  let range ← day.epochs.shiftedBack
  let (first, stop) ← range.slots
  let (deposits, withdrawals) ←
    (readStage (.deposits range day)).both (readStage (.withdrawals first stop))
  let depositBatches ← Batch.plan Deposits.target (deposits.map Deposits.row) settings.upsertBatch
  let withdrawalBatches ←
    Batch.plan Withdrawals.target (withdrawals.map (Withdrawals.row day)) settings.upsertBatch
  match depositBatches ++ withdrawalBatches with
  | [] => pure ()
  | batches => writeTogether (batches.map .merge)
  markExported day .withdrawalsDeposits

end Transfers
end ValidatorDays
