import ValidatorDays.Chain.Day
/-! The command line: a command, and options that take a value each. -/
namespace ValidatorDays

inductive Command where
  | exportDay (day : Day)
  | exportDays (start stop : Day)
  | exportChartSeries (day : Day)
  | incomeHistory (indices : List ValidatorIndex) (lower : Day) (upper : Option Day) (chain : Int)
  | follow (interval : Int)
  deriving DecidableEq, Repr

inductive UsageError where
  | nothingGiven
  | unknownCommand
  | unknownArgument
  | valueMissing
  | valueNotNeeded
  | invalidValue
  | givenTwice
  | optionMissing
  | help
  | version
  deriving DecidableEq, Repr

structure OptionRule where
  name : String
  bounds : Bounds
  isList : Bool
  deriving DecidableEq, Repr

namespace CommandLine

abbrev Given := List (String × List Int)

def valuesOf (given : Given) (name : String) : List Int :=
  (given.filter (·.1 = name)).flatMap (·.2)

structure Pending where
  rule : OptionRule
  value : Option String

def readValue (rule : OptionRule) (text : String) : Except UsageError Int :=
  match rule.bounds.read text with
  | .ok n => .ok n
  | .error _ => .error .invalidValue

def parts (rule : OptionRule) (text : String) : List String :=
  if rule.isList then text.splitOn "," else [text]

/-- Takes an option in. That it has a value comes first, that it is given once comes second,
and only then is the value read. -/
def take (given : Given) (rule : OptionRule) (value : Option String) : Except UsageError Given :=
  match value with
  | none => .error .valueMissing
  | some text =>
    if !rule.isList && given.any (·.1 = rule.name) then .error .givenTwice
    else do
      let values ← (parts rule text).mapM (readValue rule)
      return given ++ [(rule.name, values)]

def takePending (given : Given) : Option Pending → Except UsageError Given
  | none => .ok given
  | some pending => take given pending.rule pending.value

def longOption? (arg : String) : Option (String × Option String) :=
  match arg.toList with
  | '-' :: '-' :: c :: cs =>
    let body := c :: cs
    match body.dropWhile (· != '=') with
    | [] => some (String.ofList body, none)
    | _ :: value => some (String.ofList (body.takeWhile (· != '=')), some (String.ofList value))
  | _ => none

def shortOption? (arg : String) : Option Char :=
  match arg.toList with
  | '-' :: c :: _ => if c = '-' then none else some c
  | _ => none

/-- Goes through the arguments of a command. After a double dash nothing is an option, and
nothing else is wanted. -/
def options (rules : List OptionRule) (given : Given) (pending : Option Pending)
    (dashed : Bool) : List String → Except UsageError Given
  | [] => takePending given pending
  | arg :: rest =>
    if dashed then .error .unknownArgument
    else if arg = "--" then options rules given pending true rest
    else
      match longOption? arg with
      | some (name, value) =>
        match rules.find? (·.name = name) with
        | some rule => do
          let given ← takePending given pending
          match value with
          | some _ => options rules (← take given rule value) none false rest
          | none => options rules given (some ⟨rule, none⟩) false rest
        | none =>
          if name = "help" then
            if value.isSome then .error .valueNotNeeded
            else do
              let _ ← takePending given pending
              .error .help
          else .error .unknownArgument
      | none =>
        match shortOption? arg with
        | some 'h' => do
          let _ ← takePending given pending
          .error .help
        | some _ => .error .unknownArgument
        | none =>
          match pending with
          | some ⟨rule, none⟩ => options rules given (some ⟨rule, some arg⟩) false rest
          | _ => .error .unknownArgument

def commandNames : List String :=
  ["export-day", "export-days", "export-chart-series", "income-history", "follow"]

def int32Option (name : String) : OptionRule := ⟨name, .int32, false⟩

def rulesOf (command : String) : List OptionRule :=
  if command = "export-days" then [int32Option "start", int32Option "end"]
  else if command = "income-history" then
    [⟨"indices", .int32, true⟩, int32Option "lower", int32Option "upper",
      ⟨"chain-id", .nat64, false⟩]
  else if command = "follow" then [⟨"interval", .nat64, false⟩]
  else [int32Option "day"]

def required (given : Given) (name : String) : Except UsageError Int :=
  match valuesOf given name with
  | n :: _ => .ok n
  | [] => .error .optionMissing

def voluntary (given : Given) (name : String) (otherwise : Int) : Int :=
  (valuesOf given name).headD otherwise

def build (command : String) (given : Given) : Except UsageError Command := do
  if command = "export-day" then return .exportDay ⟨← required given "day"⟩
  else if command = "export-days" then
    return .exportDays ⟨← required given "start"⟩ ⟨← required given "end"⟩
  else if command = "export-chart-series" then
    return .exportChartSeries ⟨← required given "day"⟩
  else if command = "income-history" then
    let _ ← required given "indices"
    return .incomeHistory (valuesOf given "indices") ⟨voluntary given "lower" 0⟩
      ((valuesOf given "upper").head?.map Day.mk) (voluntary given "chain-id" 1)
  else return .follow (voluntary given "interval" 300)

def helpOn : List String → UsageError
  | [] => .help
  | [command] => if command ∈ "help" :: commandNames then .help else .unknownCommand
  | _ :: _ :: _ => .unknownCommand

def read (dashed : Bool) : List String → Except UsageError Command
  | [] => .error .nothingGiven
  | arg :: rest =>
    if dashed then
      .error (if arg ∈ "help" :: commandNames then .unknownArgument else .unknownCommand)
    else if arg ∈ commandNames then do
      build arg (← options (rulesOf arg) [] none false rest)
    else if arg = "help" then .error (helpOn rest)
    else if arg = "--" then read true rest
    else
      match longOption? arg with
      | some (name, value) =>
        if name = "help" ∨ name = "version" then
          .error
            (if value.isSome then .valueNotNeeded
            else if name = "help" then .help
            else .version)
        else .error .unknownArgument
      | none =>
        match shortOption? arg with
        | some 'h' => .error .help
        | some 'V' => .error .version
        | some _ => .error .unknownArgument
        | none => .error .unknownCommand

end CommandLine

def Command.read (args : List String) : Except UsageError Command := CommandLine.read false args

end ValidatorDays
