import ValidatorDays.Command.Line
import ValidatorDays.Command.Run
import ValidatorDays.Environment
import ValidatorDays.Json.Writer
import ValidatorDays.Service.Connection
import ValidatorDays.Service.Serve
import ValidatorDays.Wire.Reply
import ValidatorDays.Wire.Statement
/-! The program. Every statement and every request goes out as a line of JSON, and a line
comes back for it; what a command prints comes last. -/
namespace ValidatorDays

def applicationName : String := "validator-stats-cli"

structure Site where
  indexer : String
  interval : Nat

structure Desk where
  inTransaction : Bool
  write : Option (Except DatabaseError Unit)
  fetch : Option (Except Report (List FailedAttestations))
  forCache : List (String × Json)

def Desk.clear : Desk := ⟨false, none, none, []⟩

abbrev Outer := StateT Desk IO

def exchange (message : Json) : IO String := do
  let out ← IO.getStdout
  out.putStrLn message.write
  out.flush
  (← IO.getStdin).getLine

/-- A transaction ends with the first statement that fails. -/
def statement {α : Type} (s : Wire.Statement) (decoder : Json.Decoder α) :
    Outer (Except DatabaseError α) := do
  match Wire.ofLine decoder (← exchange s.toJson) with
  | .ok rows => return .ok rows
  | .error cause =>
    if (← get).inTransaction then
      let _ ← exchange (Wire.Statement.toJson ⟨"ROLLBACK", [], none⟩)
      modify fun desk => { desk with inTransaction := false }
    return .error cause

def ask (site : Site) (q : IndexerQuery) : IO (Except Report q.Rows) := do
  match Http.exchange? site.indexer q with
  | none => return .ok (Http.unasked q)
  | some e =>
    let line ← exchange (.object [("method", .text (if e.method = .get then "GET" else "POST")),
      ("url", .text e.url), ("body", e.body.getD .null)])
    return Wire.ofResponseLine q e.url line

def landing {ε ρ : Type} :
    (count : Nat) → Option (Except ε ρ) → Option (Landing count ε ρ)
  | count + 1, some answer => some (Fin.last count, answer)
  | _, _ => none

def clock : Outer Instant := do
  match ← statement ⟨"clock", [], none⟩ (Wire.oneRow (Wire.column Json.int64)) with
  | .ok seconds => return .ofSeconds seconds
  | .error _ => return .ofSeconds Instant.calendar.greatest

def longestSleep : Nat := 4294967295

def sleep (seconds : Nat) : IO Unit := IO.sleep (min (seconds * 1000) longestSleep).toUInt32

def answer (site : Site) (r : Request) : Outer r.Answer :=
  match r with
  | .query q => statement (Wire.ofQuery q) (Wire.rowsOf q)
  | .write w => statement (Wire.ofWrite w) Wire.noRows
  | .begin => do
    let begun ← statement ⟨"BEGIN", [], none⟩ Wire.noRows
    if begun.isOk then modify fun desk => { desk with inTransaction := true }
    return begun
  | .commit => do
    let done ← statement ⟨"COMMIT", [], none⟩ Wire.noRows
    modify fun desk => { desk with inTransaction := false }
    return done
  | .indexer q => ask site q
  | .relays _ => return .error ⟨["no relay"]⟩
  | .price _ => return .error ⟨["no price feed"]⟩
  | .cacheRead .. => return .error ⟨["no cache"]⟩
  | .cacheSubmit key value =>
    modify fun desk => { desk with forCache := desk.forCache ++ [(key, value)] }
  | .startWrite w => do
    let written ← statement (Wire.ofWrite w) Wire.noRows
    modify fun desk => { desk with write := some written }
  | .pollWrites underWay | .awaitWrites underWay =>
    modifyGet fun desk => (landing underWay.length desk.write, { desk with write := none })
  | .startFetch range => do
    let fetched ← ask site (.failedAttestations range)
    modify fun desk => { desk with fetch := some fetched }
  | .pollFetches underWay | .awaitFetches underWay =>
    modifyGet fun desk => (landing underWay.length desk.fetch, { desk with fetch := none })
  | .firstGoesOn | .feederFirst => return true
  | .patience => do
    sleep site.interval
    return false
  | .now => clock
  | .connect url => statement ⟨"connect", [.text url], none⟩ Wire.noRows

def perform {α : Type} (site : Site) : Program α → Outer (Outcome α)
  | .done a => return .ok a
  | .fail cause => return .error cause
  | .ask r next => do perform site (next (← answer site r))

partial def followOn (site : Site) (settings : Settings) (state : Follow.State) :
    Outer (Outcome Unit) := do
  match ← perform site (Follow.step settings state).serve with
  | .ok state => followOn site settings state
  | .error cause => return .error cause

def storeForCache (site : Site) : Outer Unit := do
  match ← perform site (Cache.storeAll (← get).forCache) with
  | .ok 0 => return ()
  | _ => IO.eprintln "some cache writes failed"

def carryOut (site : Site) (settings : Settings) : Command → Outer (Outcome Unit)
  | .exportDay day => do
    return (← perform site ((exportDay settings day).mapFailure .asReport).serve).map fun _ => ()
  | .exportDays start stop => perform site (exportDays settings start stop).serve
  | .exportChartSeries day => do
    let series := (ChartSeries.write settings day).mapFailure .asReport
    return (← perform site series.serve).map fun _ => ()
  | .incomeHistory indices lower upper chain => do
    match ← perform site (incomeHistory chain indices lower upper).serve with
    | .ok history =>
      IO.println ((IncomeHistory.toJson history).pretty 0)
      storeForCache site
      return .ok ()
    | .error cause => return .error cause
  | .follow _ => followOn site settings .lookUp

def intervalOf : Command → Nat
  | .follow interval => interval.toNat
  | _ => 0

def readEnvironment : IO Environment := do
  let found ← (Environment.secrets ++ Environment.tunables).filterMapM fun name => do
    return (← IO.getEnv name).map fun value => (name, value)
  return fun name => found.lookup name

def runCommand (command : Command) : IO (Outcome Unit) := do
  let env ← readEnvironment
  match env.addresses, env.settings with
  | .error cause, _ | _, .error cause => return .error cause
  | .ok addresses, .ok settings =>
    let site : Site := ⟨addresses.indexer, intervalOf command⟩
    let work : Outer (Outcome Unit) := do
      match ← perform site
          (Pools.connect addresses.database addresses.databaseReader applicationName) with
      | .ok _ => carryOut site settings command
      | .error cause => return .error cause
    work.run' Desk.clear

def usage : String :=
  "usage: " ++ applicationName ++ " COMMAND\n\n" ++
  "  export-day --day DAY\n" ++
  "  export-days --start DAY --end DAY\n" ++
  "  export-chart-series --day DAY\n" ++
  "  income-history --indices INDEX,INDEX... [--lower DAY] [--upper DAY] [--chain-id ID]\n" ++
  "  follow [--interval SECONDS]"

def UsageError.message : UsageError → String
  | .nothingGiven | .help => usage
  | .version => applicationName
  | .unknownCommand => "unknown command"
  | .unknownArgument => "unexpected argument"
  | .valueMissing => "an option lacks its value"
  | .valueNotNeeded => "an option takes no value"
  | .invalidValue => "the value of an option is invalid"
  | .givenTwice => "an option is given twice"
  | .optionMissing => "a required option is missing"

def Failure.text : Failure → String
  | .fault cause => cause.message?.getD "a value is out of range"
  | .database cause => cause.message
  | .stage cause => cause.report.text
  | .report cause => cause.text

end ValidatorDays

open ValidatorDays in
def main (args : List String) : IO UInt32 := do
  match Command.read args with
  | .error asked@(.help) | .error asked@(.version) =>
    IO.println asked.message
    return 0
  | .error wrong =>
    IO.eprintln wrong.message
    return 2
  | .ok command =>
    match ← runCommand command with
    | .ok () => return 0
    | .error cause =>
      IO.eprintln ("error: " ++ cause.text)
      return 1
