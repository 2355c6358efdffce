import ValidatorDays.Chain.BlockRange
import ValidatorDays.Chain.Day
import ValidatorDays.Text.Span
/-! How work can fail: a statement that the database refuses, a stage that cannot go on, a
command that gives up, or a fault. -/
namespace ValidatorDays

inductive DatabaseError where
  | refused (reason : String)
  | noConnection
  | noRow
  | badUrl (reason : String)
  deriving DecidableEq, Repr

namespace DatabaseError

def message : DatabaseError → String
  | .refused reason => "error returned from database: " ++ reason
  | .noConnection => "pool timed out while waiting for an open connection"
  | .noRow => "no rows returned by a query that expected to return at least one row"
  | .badUrl reason => "error with configuration: " ++ reason

def chain (e : DatabaseError) : List String :=
  match e with
  | .refused reason | .badUrl reason => [e.message, reason]
  | .noConnection | .noRow => [e.message]

end DatabaseError

structure Report where
  chain : List String
  deriving DecidableEq, Repr

namespace Report

def text (r : Report) : String := ": ".intercalate r.chain

def within (context : String) (r : Report) : Report := ⟨context :: r.chain⟩

end Report

inductive StageError where
  | notFinalized (day : Day) (finalized expected : Int)
  | missingExports (day : Day) (missing : List String)
  | notPersisted (cause : DatabaseError)
  | notAggregated (cause : Report)
  | deadlineExceeded (stage : String) (deadline : Span)
  | beforeActivation (day : Day) (firstBlock activationBlock : BlockNumber)
  | unexpectedValue (what value context : String)
  deriving DecidableEq, Repr

namespace StageError

def message : StageError → String
  | .notFinalized day finalized expected =>
    "day " ++ day.text ++ " is not finalized yet, " ++ intText finalized ++ " of " ++
      intText expected ++ " epochs finalized"
  | .missingExports day missing =>
    "day " ++ day.text ++ " is missing required exports: " ++ ", ".intercalate missing
  | .notPersisted _ => "failed to persist statistics"
  | .notAggregated _ => "failed to aggregate statistics"
  | .deadlineExceeded stage deadline => stage ++ " did not finish within " ++ deadline.text
  | .beforeActivation day firstBlock activationBlock =>
    "day " ++ day.text ++ " starts at block " ++ intText firstBlock ++
      ", at or before activation block " ++ intText activationBlock
  | .unexpectedValue what value context =>
    "unexpected " ++ what ++ " " ++ value ++ " in " ++ context

/-- The same stage may succeed later although nothing else changes. -/
def isRetryable : StageError → Bool
  | .notFinalized .. | .deadlineExceeded .. => true
  | .missingExports .. | .notPersisted _ | .notAggregated _ | .beforeActivation ..
  | .unexpectedValue .. => false

def causes : StageError → List String
  | .notPersisted cause => cause.chain
  | .notAggregated cause => cause.chain
  | .notFinalized .. | .missingExports .. | .deadlineExceeded .. | .beforeActivation ..
  | .unexpectedValue .. => []

def report (e : StageError) : Report := ⟨e.message :: e.causes⟩

end StageError

inductive Failure where
  | fault (cause : Fault)
  | database (cause : DatabaseError)
  | stage (cause : StageError)
  | report (cause : Report)
  deriving DecidableEq, Repr

namespace Failure

/-- A stage reports a refused statement as its own failure. -/
def asStage : Failure → Failure
  | .database cause => .stage (.notPersisted cause)
  | failure => failure

def asAggregation : Failure → Failure
  | .database cause => .stage (.notAggregated ⟨cause.chain⟩)
  | .report cause => .stage (.notAggregated cause)
  | failure => failure

def asReport : Failure → Failure
  | .database cause => .report ⟨cause.chain⟩
  | .stage cause => .report cause.report
  | failure => failure

def asReportWithin (context : String) (failure : Failure) : Failure :=
  match failure.asReport with
  | .report cause => .report (cause.within context)
  | failure => failure

end Failure

abbrev Outcome (α : Type) := Except Failure α

namespace Outcome

def ofChecked {α : Type} : Checked α → Outcome α
  | .ok a => .ok a
  | .error fault => .error (.fault fault)

def ofStage {α : Type} : Except StageError α → Outcome α
  | .ok a => .ok a
  | .error e => .error (.stage e)

end Outcome

instance : MonadLift (Except Fault) (Except Failure) := ⟨Outcome.ofChecked⟩
instance : MonadLift (Except StageError) (Except Failure) := ⟨Outcome.ofStage⟩

end ValidatorDays
