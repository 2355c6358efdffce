import ValidatorDays.Chart.Series
import ValidatorDays.Income.History
import ValidatorDays.Stage.Day
/-! What the commands do: export one day, a row of days, or day after day without end, and
tell the income of validators. -/
namespace ValidatorDays

def exportHeading (day : Day) : String := "failed to export day " ++ day.text

def exportFrom (settings : Settings) : Nat → Day → Program Unit
  | 0, _ => return ()
  | count + 1, day => do
    let _ ← (exportDay settings day).mapFailure (.asReportWithin (exportHeading day))
    exportFrom settings count (← day.next)

def exportDays (settings : Settings) (start stop : Day) : Program Unit := do
  if stop < start then
    .fail (.report ⟨["start day " ++ start.text ++ " is after end day " ++ stop.text]⟩)
  else
    let count ← Bounds.int32.check ((← Bounds.int32.check (stop.number - start.number)) + 1)
    exportFrom settings count.toNat start

/-- A day whose chart series fails is left for later. -/
def exportChartIfMissing (settings : Settings) (day : Day) : Program Unit := do
  if ← (Program.query (.chartDayExported day)).mapFailure .asReport then return ()
  match ← (ChartSeries.write settings day).attempt with
  | .error (.fault cause) => .fail (.fault cause)
  | _ => return ()

def incomeHistory (chain : Int) (indices : List ValidatorIndex) (lower : Day)
    (upper : Option Day) : Program IncomeHistory :=
  Program.mapFailure .asReport do
    match ← Program.query .lastFinalizedEpoch with
    | some epoch => IncomeRequest.history ⟨chain, indices, lower, upper, epoch⟩
    | none => .fail (.report ⟨["no finalized epoch stored yet"]⟩)

namespace Follow

inductive State where
  | lookUp
  | attempt (day : Day)
  deriving DecidableEq, Repr

def nextDay : Program Day := do
  match ← (Program.query .lastExportedDay).mapFailure .asReport with
  | some day => return ← day.next
  | none => return .genesis

/-- A day that cannot be exported yet is tried again; when patience ends, the next day is
looked up anew. -/
def step (settings : Settings) : State → Program State
  | .lookUp => return .attempt (← nextDay)
  | .attempt day => do
    match ← (exportDay settings day).attempt with
    | .ok _ =>
      exportChartIfMissing settings day
      return .lookUp
    | .error (.stage e) =>
      if e.isRetryable then
        return if ← .ask .patience .done then .attempt day else .lookUp
      else .fail ((Failure.stage e).asReportWithin (exportHeading day))
    | .error cause => .fail cause

def run (settings : Settings) : Nat → State → Program State
  | 0, state => return state
  | steps + 1, state => do run settings steps (← step settings state)

end Follow
end ValidatorDays
