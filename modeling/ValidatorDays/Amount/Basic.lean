import ValidatorDays.Text.Integer
import ValidatorDays.Decimal.Basic
/-! Money. The consensus layer counts in gwei, the execution layer in wei, and sums
of either stop at the first one that does not fit. -/
namespace ValidatorDays

inductive Denomination where
  | gwei
  | wei
  deriving DecidableEq, Repr

namespace Denomination

def bounds : Denomination → Bounds
  | .gwei => .int64
  | .wei => .int128

def additionFault : Denomination → Fault
  | .gwei => .gweiAddition
  | .wei => .weiAddition

def subtractionFault : Denomination → Fault
  | .gwei => .gweiSubtraction
  | .wei => .weiSubtraction

end Denomination

structure Amount (d : Denomination) where
  count : Int
  deriving DecidableEq, Repr

abbrev Gwei := Amount .gwei
abbrev Wei := Amount .wei

namespace Amount

variable {d : Denomination}

instance : Inhabited (Amount d) := ⟨⟨0⟩⟩
instance : LE (Amount d) := ⟨fun a b => a.count ≤ b.count⟩
instance : LT (Amount d) := ⟨fun a b => a.count < b.count⟩
instance (a b : Amount d) : Decidable (a ≤ b) := inferInstanceAs (Decidable (a.count ≤ b.count))
instance (a b : Amount d) : Decidable (a < b) := inferInstanceAs (Decidable (a.count < b.count))

def zero : Amount d := ⟨0⟩

def add (a b : Amount d) : Checked (Amount d) :=
  if a.count + b.count ∈ d.bounds then .ok ⟨a.count + b.count⟩ else .error d.additionFault

def sub (a b : Amount d) : Checked (Amount d) :=
  if a.count - b.count ∈ d.bounds then .ok ⟨a.count - b.count⟩ else .error d.subtractionFault

/-- From left to right: a sum that leaves the range on the way is a fault even if the
total is inside. -/
def sum (amounts : List (Amount d)) : Checked (Amount d) := amounts.foldlM add zero

def greater (a b : Amount d) : Amount d := if a ≤ b then b else a

def text (a : Amount d) : String := intText a.count

def toDecimal (a : Amount d) : Decimal := .ofInt a.count

end Amount

def weiPerGwei : Int := 1000000000
def weiPerEth : Int := 1000000000000000000

def Amount.toWei (a : Gwei) : Wei := ⟨a.count * weiPerGwei⟩

def Amount.ofEth (eth : Int) : Checked Wei := return ⟨← Bounds.int128.check (eth * weiPerEth)⟩

end ValidatorDays
