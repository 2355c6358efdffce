import ValidatorDays.Text.Plain
import ValidatorDays.Json.Reader
/-! Typed readings of JSON values. A reading goes through a value in the order of its
text, so of two things that are wrong with a text the first one counts. -/
namespace ValidatorDays.Json

inductive Found where
  | bool (b : Bool)
  | int (n : Int)
  | float
  | text (s : String)
  | null
  | list
  | object
  deriving DecidableEq, Repr

/-- Floats have no agreed spelling, so nothing is said about one. -/
def Found.text? : Found → Option String
  | .bool b => some ("boolean " ++ "`" ++ (if b then "true" else "false") ++ "`")
  | .int n => some ("integer " ++ "`" ++ intText n ++ "`")
  | .float => none
  | .text s => some ("string " ++ quoted s)
  | .null => some "null"
  | .list => some "sequence"
  | .object => some "map"

inductive Mismatch where
  | type (found : Found) (expected : String)
  | value (found : Found) (expected : String)
  | refused (reason : String)
  | missingMember (name : String)
  | repeatedMember (name : String)
  | length (expected : Nat)
  deriving DecidableEq, Repr

def Mismatch.message? : Mismatch → Option String
  | .type found expected =>
    found.text?.map fun text => "invalid type: " ++ text ++ ", expected " ++ expected
  | .value found expected =>
    found.text?.map fun text => "invalid value: " ++ text ++ ", expected " ++ expected
  | .refused reason => some reason
  | .missingMember name => some ("missing field " ++ "`" ++ name ++ "`")
  | .repeatedMember name => some ("duplicate field " ++ "`" ++ name ++ "`")
  | .length _ => none

inductive DecodeError where
  | notJson
  | mismatch (m : Mismatch)
  deriving DecidableEq, Repr

abbrev Decoder (α : Type) := Json → Except DecodeError α

def mistyped {α : Type} (found : Found) (expected : String) : Except DecodeError α :=
  .error (.mismatch (.type found expected))

/-- Refuses a value for its type. Of a leaf that cannot be read nothing can be told, not
even its type. -/
def refuse {α : Type} (expected : String) : Decoder α
  | .null => mistyped .null expected
  | .bool b => mistyped (.bool b) expected
  | .int n => mistyped (.int n) expected
  | .real _ => mistyped .float expected
  | .text s => mistyped (.text s) expected
  | .list _ => mistyped .list expected
  | .object _ => mistyped .object expected
  | .beyond | .halfPair | .broken => .error .notJson

def string : Decoder String
  | .text s => .ok s
  | value => refuse "a string" value

def integer (b : Bounds) (expected : String) : Decoder Int
  | .int n => if n ∈ b then .ok n else .error (.mismatch (.value (.int n) expected))
  | value => refuse expected value

def int32 : Decoder Int := integer .int32 "i32"
def int64 : Decoder Int := integer .int64 "i64"
def byte : Decoder Int := integer .byte "u8"

def optional {α : Type} (decoder : Decoder α) : Decoder (Option α)
  | .null => .ok none
  | value => some <$> decoder value

def listOf {α : Type} (decoder : Decoder α) : Decoder (List α)
  | .list items => items.mapM decoder
  | value => refuse "a sequence" value

def passOver (value : Json) : Except DecodeError Unit :=
  if value.isWhole then .ok () else .error .notJson

structure Member where
  name : String
  check : Json → Except DecodeError Unit
  mayLack : Bool

namespace Member

def required {α : Type} (name : String) (decoder : Decoder α) : Member :=
  ⟨name, fun value => (fun _ => ()) <$> decoder value, false⟩

def voluntary {α : Type} (name : String) (decoder : Decoder α) : Member :=
  ⟨name, fun value => (fun _ => ()) <$> decoder value, true⟩

end Member

/-- Goes through the members of an object in the order of the text. Members nobody asked
for are passed over, but their names are read. -/
def checkMembers (members : List Member) (seen : List String) :
    List (Option String × Json) → Except DecodeError Unit
  | [] => .ok ()
  | (none, _) :: _ => .error .notJson
  | (some name, value) :: rest =>
    match members.find? (·.name = name) with
    | none => do
      passOver value
      checkMembers members seen rest
    | some member =>
      if name ∈ seen then .error (.mismatch (.repeatedMember name))
      else do
        member.check value
        checkMembers members (name :: seen) rest

def memberValues (found : List (Option String × Json)) :
    List Member → Except DecodeError (List Json)
  | [] => .ok []
  | member :: rest =>
    match found.find? (·.1 = some member.name) with
    | some (_, value) => return value :: (← memberValues found rest)
    | none =>
      if member.mayLack then return .null :: (← memberValues found rest)
      else .error (.mismatch (.missingMember member.name))

def checkItems (count : Nat) : List Member → List Json → Except DecodeError Unit
  | [], [] => .ok ()
  | [], _ :: _ => .error .notJson
  | _ :: _, [] => .error (.mismatch (.length count))
  | member :: members, item :: items => do
    member.check item
    checkItems count members items

/-- The values of an object's members, or of a list that stands for it. -/
def membersOf (expected : String) (members : List Member) : Decoder (List Json)
  | .object found => do
    checkMembers members [] found
    memberValues found members
  | .list items => do
    checkItems members.length members items
    return items
  | value => refuse expected value

def decodeText {α : Type} (decoder : Decoder α) (text : String) : Except DecodeError α := do
  let (value, alone) := read text
  let decoded ← decoder value
  if alone then return decoded else .error .notJson

end ValidatorDays.Json
