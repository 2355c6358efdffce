import ValidatorDays.Bounds
/-! Whole numbers in text: one optional sign, then ASCII digits and nothing else.
Reading goes from left to right and names the first thing that is wrong. -/
namespace ValidatorDays

inductive IntegerError where
  | empty
  | invalidDigit
  | tooLarge
  | tooSmall
  deriving DecidableEq, Repr

namespace IntegerError

def message : IntegerError → String
  | .empty => "cannot parse integer from empty string"
  | .invalidDigit => "invalid digit found in string"
  | .tooLarge => "number too large to fit in target type"
  | .tooSmall => "number too small to fit in target type"

def label : IntegerError → String
  | .empty => "ParseIntError \x7b kind: Empty \x7d"
  | .invalidDigit => "ParseIntError \x7b kind: InvalidDigit \x7d"
  | .tooLarge => "ParseIntError \x7b kind: PosOverflow \x7d"
  | .tooSmall => "ParseIntError \x7b kind: NegOverflow \x7d"

end IntegerError

def intChars (n : Int) : List Char :=
  if n < 0 then '-' :: Nat.toDigits 10 n.natAbs else Nat.toDigits 10 n.natAbs

def intText (n : Int) : String := String.ofList (intChars n)

def digit? (c : Char) : Option Nat :=
  if '0' ≤ c ∧ c ≤ '9' then some (c.toNat - '0'.toNat) else none

namespace Bounds

def readUp (b : Bounds) (n : Int) : List Char → Except IntegerError Int
  | [] => .ok n
  | c :: rest =>
    match digit? c with
    | none => .error .invalidDigit
    | some d => if 10 * n + d ∈ b then b.readUp (10 * n + d) rest else .error .tooLarge

def readDown (b : Bounds) (n : Int) : List Char → Except IntegerError Int
  | [] => .ok n
  | c :: rest =>
    match digit? c with
    | none => .error .invalidDigit
    | some d => if 10 * n - d ∈ b then b.readDown (10 * n - d) rest else .error .tooSmall

/-- A range without negative numbers takes no minus sign, not even for zero. -/
def readChars (b : Bounds) : List Char → Except IntegerError Int
  | [] => .error .empty
  | ['+'] | ['-'] => .error .invalidDigit
  | '+' :: digits => b.readUp 0 digits
  | '-' :: digits => if b.least < 0 then b.readDown 0 digits else .error .invalidDigit
  | digits => b.readUp 0 digits

def read (b : Bounds) (s : String) : Except IntegerError Int := b.readChars s.toList

end Bounds
end ValidatorDays
