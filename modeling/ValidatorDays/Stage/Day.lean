import ValidatorDays.Stage.Indexed
import ValidatorDays.Stage.BlockStats
import ValidatorDays.Stage.ConsensusRewards
import ValidatorDays.Stage.ExecutionRewards
import ValidatorDays.Stage.TotalPerformance
import ValidatorDays.Stage.Transfers
/-! The export of a day: every category that is not exported yet, in order, and then the day
as a whole. What was exported before is not touched again. -/
namespace ValidatorDays

def exportCategory (settings : Settings) (day : Day) : Category → Program Unit
  | .failedAttestations => FailedAttestations.stage settings day
  | .syncDuties => SyncDuties.stage settings day
  | .withdrawalsDeposits => Transfers.stage settings day
  | .blockStats => BlockStats.stage settings day
  | .balance => BalanceSummary.stage settings day
  | .consensusRewards => ConsensusRewards.stage settings day
  | .executionRewards => ExecutionRewards.stage settings day
  | .totalPerformance => TotalPerformance.stage settings day

/-- The stages of the categories that `status` lacks, up to the first that fails. -/
def exportMissing (settings : Settings) (day : Day) (status : DayStatus) :
    List Category → Program Unit
  | [] => return ()
  | category :: rest => do
    if !status.exported category then exportCategory settings day category
    exportMissing settings day status rest

/-- Finishes the day if all of it is exported, and says whether it is. A finished day stays
as it is. -/
def finishDay (day : Day) : Program Bool := do
  Program.begin
  let complete ←
    match ← Program.query (.statusForUpdate day) with
    | none => pure false
    | some status =>
      if status.allExported then
        if !status.finished then Program.write (.setFinished day)
        pure true
      else pure false
  Program.commit
  return complete

def exportDay (settings : Settings) (day : Day) : Program DayStatus :=
  Program.mapFailure .asStage do
    let status ← statusOf day
    if status.isComplete then return status
    ensureDayFinalized day
    exportMissing settings day status Category.all
    if ← finishDay day then statusOf day
    else
      let status ← statusOf day
      .fail (.stage (.missingExports day (status.missing.map Category.column)))

end ValidatorDays
