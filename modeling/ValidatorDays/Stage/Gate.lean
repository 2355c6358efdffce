import ValidatorDays.Settings
import ValidatorDays.Upsert.Merge
/-! What a stage makes sure of before it begins, and how it says that it is done. -/
namespace ValidatorDays

def statsTarget (columns : List String) : Target :=
  ⟨"validator_stats", ["validatorindex", "day"], "validatorindex" :: "day" :: columns⟩

def Settings.group (s : Settings) (stage : String) : Group := ⟨stage, s.concurrency, s.deadline⟩

def readStage (q : Query) : Program q.Rows := (Program.query q).mapFailure .asStage

def writeStage (w : Write) : Program Unit := (Program.write w).mapFailure .asStage

def askIndexer (q : IndexerQuery) : Program q.Rows := (Program.indexer q).mapFailure .asAggregation

def checkFinalized (day : Day) (finalized : Int) : Except StageError Unit :=
  if finalized < epochsPerDay then .error (.notFinalized day finalized epochsPerDay) else .ok ()

/-- Statistics of epochs that may still change are never written. -/
def ensureEpochsFinalized (day : Day) (range : EpochRange) : Program Unit := do
  let finalized ← readStage (.finalizedEpochs range)
  checkFinalized day finalized

def ensureDayFinalized (day : Day) : Program Unit := ensureEpochsFinalized day day.epochs

/-- A day without a row has nothing exported. -/
def statusOf (day : Day) : Program DayStatus :=
  return (← Program.query (.status day)).getD .blank

abbrev Requirements := List (Day × Category)

def unmet (day : Day) (category : Category) : String :=
  category.column ++ " for day " ++ day.text

/-- Reads the status once for every requirement and names those that are not met. -/
def missingExports : Requirements → Program (List String)
  | [] => return []
  | (day, category) :: rest => do
    let status ← statusOf day
    let missing ← missingExports rest
    return if status.exported category then missing else unmet day category :: missing

def ensureExported (day : Day) (requirements : Requirements) : Program Unit := do
  match ← (missingExports requirements).mapFailure .asStage with
  | [] => return ()
  | missing => .fail (.stage (.missingExports day missing))

def markExported (day : Day) (category : Category) : Program Unit :=
  writeStage (.markExported day category)

end ValidatorDays
