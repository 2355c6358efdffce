import ValidatorDays.Text.Integer
import ValidatorDays.Decimal.Basic
/-! Decimal numbers in text. They are written plainly, without exponent and without
zeros at the end; they are read with either. -/
namespace ValidatorDays.Decimal

def trimZeros : Nat → Nat → Nat × Nat
  | 0, n => (n, 0)
  | fuel + 1, n =>
    if n % 10 = 0 then
      let rest := trimZeros fuel (n / 10)
      (rest.1, rest.2 + 1)
    else (n, 0)

def withPoint (digits : List Char) (places : Nat) : List Char :=
  let padded := List.replicate (places + 1 - digits.length) '0' ++ digits
  padded.take (padded.length - places) ++ '.' :: padded.drop (padded.length - places)

def render (a : Decimal) : String :=
  if a.mantissa = 0 then "0"
  else
    let digits := Nat.toDigits 10 a.mantissa.natAbs
    let trimmed := trimZeros digits.length a.mantissa.natAbs
    let scale := a.scale - trimmed.2
    let shown := Nat.toDigits 10 trimmed.1
    let body :=
      if scale ≤ 0 then shown ++ List.replicate (-scale).toNat '0'
      else withPoint shown scale.toNat
    String.ofList (if a.mantissa < 0 then '-' :: body else body)

def digitsValue : List Char → Option Nat :=
  List.foldl (fun n c => return 10 * (← n) + (← digit? c)) (some 0)

def readPlain (cs : List Char) : Option Decimal :=
  let whole := cs.takeWhile (· != '.')
  let places := (cs.dropWhile (· != '.')).drop 1
  if whole ++ places = [] then none
  else (digitsValue (whole ++ places)).map fun n => ⟨n, places.length⟩

def isExponentMark (c : Char) : Bool := c == 'e' || c == 'E'

def readUnsigned (cs : List Char) : Option Decimal :=
  match cs.dropWhile (!isExponentMark ·) with
  | [] => readPlain cs
  | _ :: exponent =>
    match readPlain (cs.takeWhile (!isExponentMark ·)), Bounds.int64.readChars exponent with
    | some a, .ok e => some ⟨a.mantissa, a.scale - e⟩
    | _, _ => none

def read? (s : String) : Option Decimal :=
  match s.toList with
  | '-' :: cs => (readUnsigned cs).map neg
  | '+' :: cs => readUnsigned cs
  | cs => readUnsigned cs

end ValidatorDays.Decimal
