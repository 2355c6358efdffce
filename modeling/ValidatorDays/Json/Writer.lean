import ValidatorDays.Binary64.Shortest
import ValidatorDays.Decimal.Text
import ValidatorDays.Json.Basic
/-! Writing JSON text, in one line or one value a line. -/
namespace ValidatorDays.Json

def lowerHexDigit (n : Nat) : Char :=
  if n < 10 then Char.ofNat ('0'.toNat + n) else Char.ofNat ('a'.toNat + (n - 10))

def writeChar (c : Char) : List Char :=
  if c = '"' then ['\\', '"']
  else if c = '\\' then ['\\', '\\']
  else if c = '\x08' then ['\\', 'b']
  else if c = '\x0c' then ['\\', 'f']
  else if c = '\n' then ['\\', 'n']
  else if c = '\r' then ['\\', 'r']
  else if c = '\t' then ['\\', 't']
  else if c.toNat < 32 then
    "\\u00".toList ++ [lowerHexDigit (c.toNat / 16), lowerHexDigit (c.toNat % 16)]
  else [c]

def writeText (s : String) : String := String.ofList ('"' :: s.toList.flatMap writeChar ++ ['"'])

/-- How many places after the start of the digits, or before it, the point may stand in a
number without exponent. -/
def pointPlaces : Bounds := ⟨-4, 16⟩

def numberChars (digits : List Char) (power : Int) : List Char :=
  let point := digits.length + power
  if point ∈ pointPlaces then
    if 0 ≤ power then digits ++ List.replicate power.toNat '0' ++ ['.', '0']
    else Decimal.withPoint digits (-power).toNat
  else
    let lead := if digits.length = 1 then digits else Decimal.withPoint digits (digits.length - 1)
    lead ++ 'e' :: intChars (point - 1)

def writeReal (a : Binary64) : String :=
  let digits := Nat.toDigits 10 a.shortest.mantissa.natAbs
  let body := numberChars digits (-a.shortest.scale)
  String.ofList (if a.negative then '-' :: body else body)

def writeName (name : Option String) : String := writeText (name.getD "")

def joined (before between after : String) (parts : List String) : String :=
  before ++ between.intercalate parts ++ after

mutual

def write : Json → String
  | .null | .beyond | .halfPair | .broken => "null"
  | .bool b => if b then "true" else "false"
  | .int n => intText n
  | .real a => writeReal a
  | .text s => writeText s
  | .list items => joined "[" "," "]" (writeItems items)
  | .object members => joined "\x7b" "," "\x7d" (writeMembers members)

def writeItems : List Json → List String
  | [] => []
  | item :: rest => item.write :: writeItems rest

def writeMembers : List (Option String × Json) → List String
  | [] => []
  | (name, value) :: rest => (writeName name ++ ":" ++ value.write) :: writeMembers rest

end

def indentation (depth : Nat) : String := "\n" ++ String.ofList (List.replicate (2 * depth) ' ')

def spread (depth : Nat) (before after : String) (parts : List String) : String :=
  if parts = [] then before ++ after
  else
    joined (before ++ indentation (depth + 1)) ("," ++ indentation (depth + 1))
      (indentation depth ++ after) parts

mutual

def pretty (depth : Nat) : Json → String
  | .list items => spread depth "[" "]" (prettyItems (depth + 1) items)
  | .object members => spread depth "\x7b" "\x7d" (prettyMembers (depth + 1) members)
  | value => value.write

def prettyItems (depth : Nat) : List Json → List String
  | [] => []
  | item :: rest => item.pretty depth :: prettyItems depth rest

def prettyMembers (depth : Nat) : List (Option String × Json) → List String
  | [] => []
  | (name, value) :: rest =>
    (writeName name ++ ": " ++ value.pretty depth) :: prettyMembers depth rest

end

end ValidatorDays.Json
