import ValidatorDays.Failure
import ValidatorDays.Settings
import ValidatorDays.Text.Lowercase
/-! Variables of the environment. What is read is noted in the log, secrets only by their
last bytes. -/
namespace ValidatorDays

abbrev Environment := String → Option String

namespace Environment

def secrets : List String := ["DATABASE_URL", "DATABASE_READER_URL", "INDEXER_URL"]

def tunables : List String :=
  ["STATS_UPSERT_BATCH_SIZE", "STATS_SYNC_DUTIES_BATCH_SIZE",
    "STATS_ATTESTATION_EPOCH_BATCH_SIZE", "STATS_PERFORMANCE_VALIDATOR_BATCH_SIZE",
    "STATS_STAGE_DEADLINE_SECS", "STATS_WORKER_CONCURRENCY", "STATS_CHART_BLOCK_BATCH_SIZE",
    "STATS_ACTIVATION_BLOCK"]

/-- The end of a text from a byte on, if a character begins there. -/
def fromByte (n : Nat) : List Char → Option (List Char)
  | [] => if n = 0 then some [] else none
  | c :: rest =>
    if n = 0 then some (c :: rest)
    else if c.utf8Size ≤ n then fromByte (n - c.utf8Size) rest
    else none

/-- What of a value may be shown: of a secret its last four bytes. -/
def shown (key value : String) : Checked String :=
  if key ∈ secrets then
    match fromByte (value.utf8ByteSize - 4) value.toList with
    | some tail => .ok ("****" ++ String.ofList tail)
    | none => .error .cutInsideCharacter
  else .ok value

structure Lookup where
  value : Option String
  logLine : String
  deriving DecidableEq, Repr

def lookUp (env : Environment) (key : String) : Checked Lookup :=
  match env key with
  | none => return ⟨none, "env var " ++ key ++ " requested but not found"⟩
  | some value => return ⟨some value, "env var " ++ key ++ ": " ++ (← shown key value)⟩

def get (env : Environment) (key : String) : Checked (Option String) :=
  return (← env.lookUp key).value

def readBool (key value : String) : Checked Bool :=
  let small := lowercase value
  if small = "true" ∨ small = "t" ∨ small = "1" then .ok true
  else if small = "false" ∨ small = "f" ∨ small = "0" then .ok false
  else .error (.notABool small key)

def getBool (env : Environment) (key : String) : Checked (Option Bool) := do
  match ← env.get key with
  | none => return none
  | some value => return some (← readBool key value)

def invalidValue (key value : String) (e : IntegerError) : Failure :=
  .report ⟨["invalid value " ++ value ++ " for " ++ key, e.label]⟩

/-- A variable that is there has to be a number: nothing falls back in silence. -/
def getInteger (env : Environment) (b : Bounds) (key : String) : Outcome (Option Int) := do
  match ← env.get key with
  | none => return none
  | some value =>
    match b.read value with
    | .ok n => return some n
    | .error e => throw (invalidValue key value e)

def getOr (env : Environment) (b : Bounds) (key : String) (otherwise : Int) : Outcome Int :=
  return (← env.getInteger b key).getD otherwise

def getSize (env : Environment) (key : String) (otherwise : Nat) : Outcome Nat :=
  return (← env.getOr .nat64 key otherwise).toNat

def settings (env : Environment) : Outcome Settings := do
  let standard := Settings.standard
  let upsertBatch ← env.getSize "STATS_UPSERT_BATCH_SIZE" standard.upsertBatch
  let syncDutiesBatch ← env.getSize "STATS_SYNC_DUTIES_BATCH_SIZE" standard.syncDutiesBatch
  let attestationEpochs ←
    env.getOr .int64 "STATS_ATTESTATION_EPOCH_BATCH_SIZE" standard.attestationEpochs
  let performanceBatch ←
    env.getSize "STATS_PERFORMANCE_VALIDATOR_BATCH_SIZE" standard.performanceBatch
  let deadline ← env.getSize "STATS_STAGE_DEADLINE_SECS" standard.deadline.seconds
  let concurrency ← env.getSize "STATS_WORKER_CONCURRENCY" standard.concurrency
  let chartBlocks ← env.getOr .int64 "STATS_CHART_BLOCK_BATCH_SIZE" standard.chartBlocks
  let activationBlock ← env.getOr .int64 "STATS_ACTIVATION_BLOCK" standard.activationBlock
  return { standard with
    upsertBatch, syncDutiesBatch, attestationEpochs, performanceBatch
    deadline := .ofSeconds deadline
    concurrency, chartBlocks, activationBlock }

structure Addresses where
  database : String
  databaseReader : String
  indexer : String
  deriving DecidableEq, Repr

def needed (key : String) : Option String → Outcome String
  | some value => return value
  | none => throw (.report ⟨[key ++ " is required"]⟩)

def addresses (env : Environment) : Outcome Addresses := do
  let database ← needed "DATABASE_URL" (← env.get "DATABASE_URL")
  let reader ← env.get "DATABASE_READER_URL"
  let indexer ← needed "INDEXER_URL" (← env.get "INDEXER_URL")
  return ⟨database, reader.getD database, indexer⟩

end Environment
end ValidatorDays
