import ValidatorDays.Text.Integer
import ValidatorDays.Json.Basic
import ValidatorDays.Json.Estimate
/-! Reading JSON text. The reader never fails: it marks the place where the text goes
wrong and stops there. -/
namespace ValidatorDays.Json

def isBlank (c : Char) : Bool := c == ' ' || c == '\n' || c == '\t' || c == '\r'

def skipBlank (cs : List Char) : List Char := cs.dropWhile isBlank

def isDigit (c : Char) : Bool := (digit? c).isSome

def digitValue (c : Char) : Nat := (digit? c).getD 0

def digitsNat (cs : List Char) : Nat := cs.foldl (fun n c => 10 * n + digitValue c) 0

def wholeNumbers : Bounds := ⟨Bounds.int64.least, Bounds.nat64.greatest⟩

/-- A number without point or exponent that fits 64 bits is whole; minus zero is not. -/
def ofDigits (negative : Bool) (whole fraction : List Char) (exponent : Option Int) : Json :=
  let size := digitsNat whole
  let value : Int := if negative then -size else size
  if fraction = [] ∧ exponent = none ∧ value ∈ wholeNumbers ∧
      (negative = true → value ≠ 0) then
    .int value
  else
    match (Estimate.ofDigits (whole.map digitValue) (fraction.map digitValue)
      (exponent.getD 0)).binary? negative with
    | some a => .real a
    | none => .beyond

def readFraction : List Char → Option (List Char × List Char)
  | '.' :: cs => if cs.takeWhile isDigit = [] then none else some (cs.span isDigit)
  | cs => some ([], cs)

def readExponentDigits (negative : Bool) (cs : List Char) : Option (Option Int × List Char) :=
  match cs.takeWhile isDigit with
  | [] => none
  | ds => some (some (if negative then -digitsNat ds else digitsNat ds), cs.dropWhile isDigit)

def readExponent : List Char → Option (Option Int × List Char)
  | 'e' :: '-' :: cs | 'E' :: '-' :: cs => readExponentDigits true cs
  | 'e' :: '+' :: cs | 'E' :: '+' :: cs => readExponentDigits false cs
  | 'e' :: cs | 'E' :: cs => readExponentDigits false cs
  | cs => some (none, cs)

/-- No number starts with a zero that is not its only digit. -/
def readUnsigned (negative : Bool) (cs : List Char) : Option (Json × List Char) := do
  let (whole, cs) := cs.span isDigit
  if whole = [] ∨ (whole.head? = some '0' ∧ whole ≠ ['0']) then none
  else
    let (fraction, cs) ← readFraction cs
    let (exponent, cs) ← readExponent cs
    return (ofDigits negative whole fraction exponent, cs)

def readNumber : List Char → Option (Json × List Char)
  | '-' :: cs => readUnsigned true cs
  | cs => readUnsigned false cs

def hexValue? (c : Char) : Option Nat :=
  if '0' ≤ c ∧ c ≤ '9' then some (c.toNat - '0'.toNat)
  else if 'a' ≤ c ∧ c ≤ 'f' then some (c.toNat - 'a'.toNat + 10)
  else if 'A' ≤ c ∧ c ≤ 'F' then some (c.toNat - 'A'.toNat + 10)
  else none

def hexFour? (a b c d : Char) : Option Nat :=
  return 4096 * (← hexValue? a) + 256 * (← hexValue? b) + 16 * (← hexValue? c) +
    (← hexValue? d)

def escape? : Char → Option Char
  | '"' => some '"'
  | '\\' => some '\\'
  | '/' => some '/'
  | 'b' => some '\x08'
  | 'f' => some '\x0c'
  | 'n' => some '\n'
  | 'r' => some '\r'
  | 't' => some '\t'
  | _ => none

def isHighHalf (n : Nat) : Bool := 0xD800 ≤ n && n < 0xDC00
def isLowHalf (n : Nat) : Bool := 0xDC00 ≤ n && n < 0xE000

def readLowHalf? : List Char → Option (Nat × List Char)
  | '\\' :: 'u' :: a :: b :: c :: d :: rest =>
    match hexFour? a b c d with
    | some n => if isLowHalf n then some (n, rest) else none
    | none => none
  | _ => none

def readChar : List Char → Option (Option Char × List Char)
  | '\\' :: 'u' :: a :: b :: c :: d :: rest => do
    let n ← hexFour? a b c d
    if isHighHalf n then
      match readLowHalf? rest with
      | some (low, rest) =>
        some (some (Char.ofNat (0x10000 + (n - 0xD800) * 1024 + (low - 0xDC00))), rest)
      | none => some (none, rest)
    else if isLowHalf n then some (none, rest)
    else some (some (Char.ofNat n), rest)
  | '\\' :: c :: rest => return (some (← escape? c), rest)
  | c :: rest => if c.toNat < 32 ∨ c = '\\' then none else some (some c, rest)
  | [] => none

/-- A text up to its closing quote. `halves` says that it held half of a pair. -/
def readText : Nat → List Char → Bool → List Char → Option (Json × List Char)
  | 0, _, _, _ => none
  | fuel + 1, done, halves, cs =>
    match cs with
    | '"' :: rest =>
      some (if halves then .halfPair else .text (String.ofList done.reverse), rest)
    | cs =>
      match readChar cs with
      | some (some c, rest) => readText fuel (c :: done) halves rest
      | some (none, rest) => readText fuel done true rest
      | none => none

def readName (cs : List Char) : Option (Option String × List Char) :=
  match readText (cs.length + 1) [] false cs with
  | some (.text name, rest) => some (some name, rest)
  | some (_, rest) => some (none, rest)
  | none => none

mutual

/-- A value and what comes after it. After a break nothing comes. -/
def readValue : Nat → List Char → Json × Option (List Char)
  | 0, _ => (.broken, none)
  | fuel + 1, cs =>
    match skipBlank cs with
    | 'n' :: 'u' :: 'l' :: 'l' :: rest => (.null, some rest)
    | 't' :: 'r' :: 'u' :: 'e' :: rest => (.bool true, some rest)
    | 'f' :: 'a' :: 'l' :: 's' :: 'e' :: rest => (.bool false, some rest)
    | '"' :: rest =>
      match readText (rest.length + 1) [] false rest with
      | some (value, rest) => (value, some rest)
      | none => (.broken, none)
    | '[' :: rest =>
      match skipBlank rest with
      | ']' :: rest => (.list [], some rest)
      | rest =>
        let items := readItems fuel rest
        (.list items.1, items.2)
    | '\x7b' :: rest =>
      match skipBlank rest with
      | '\x7d' :: rest => (.object [], some rest)
      | rest =>
        let members := readMembers fuel rest
        (.object members.1, members.2)
    | rest =>
      match readNumber rest with
      | some (value, rest) => (value, some rest)
      | none => (.broken, none)

def readItems : Nat → List Char → List Json × Option (List Char)
  | 0, _ => ([.broken], none)
  | fuel + 1, cs =>
    match readValue fuel cs with
    | (item, none) => ([item], none)
    | (item, some rest) =>
      match skipBlank rest with
      | ']' :: rest => ([item], some rest)
      | ',' :: rest =>
        let items := readItems fuel rest
        (item :: items.1, items.2)
      | _ => ([item, .broken], none)

def readMembers : Nat → List Char → List (Option String × Json) × Option (List Char)
  | 0, _ => ([("", .broken)], none)
  | fuel + 1, cs =>
    match skipBlank cs with
    | '"' :: rest =>
      match readName rest with
      | some (name, rest) =>
        match skipBlank rest with
        | ':' :: rest =>
          match readValue fuel rest with
          | (value, none) => ([(name, value)], none)
          | (value, some rest) =>
            match skipBlank rest with
            | '\x7d' :: rest => ([(name, value)], some rest)
            | ',' :: rest =>
              let members := readMembers fuel rest
              ((name, value) :: members.1, members.2)
            | _ => ([(name, value), ("", .broken)], none)
        | _ => ([(name, .broken)], none)
      | none => ([("", .broken)], none)
    | _ => ([("", .broken)], none)

end

def read (text : String) : Json × Bool :=
  let cs := text.toList
  match readValue (2 * cs.length + 2) cs with
  | (value, some rest) => (value, skipBlank rest == [])
  | (value, none) => (value, false)

end ValidatorDays.Json
