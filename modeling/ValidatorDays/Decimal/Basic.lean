namespace ValidatorDays

/-- The number `mantissa · 10 ^ (-scale)`. One number has many forms, and the form decides
how far a division goes. -/
structure Decimal where
  mantissa : Int
  scale : Int
  deriving Repr

namespace Decimal

def ofInt (n : Int) : Decimal := ⟨n, 0⟩

instance (n : Nat) : OfNat Decimal n := ⟨ofInt n⟩
instance : Coe Int Decimal := ⟨ofInt⟩
instance : Inhabited Decimal := ⟨0⟩

def mantissaAt (a : Decimal) (scale : Int) : Int := a.mantissa * Int.pow 10 (scale - a.scale).toNat

def finerScale (a b : Decimal) : Int := max a.scale b.scale

def add (a b : Decimal) : Decimal :=
  ⟨a.mantissaAt (finerScale a b) + b.mantissaAt (finerScale a b), finerScale a b⟩

def mul (a b : Decimal) : Decimal := ⟨a.mantissa * b.mantissa, a.scale + b.scale⟩

def neg (a : Decimal) : Decimal := ⟨-a.mantissa, a.scale⟩

def isZero (a : Decimal) : Bool := a.mantissa == 0

/-- A zero on either side takes no part, so its form does not count. In a sum it does. -/
def sub (a b : Decimal) : Decimal :=
  if b.isZero then a
  else if a.isZero then b.neg
  else ⟨a.mantissaAt (finerScale a b) - b.mantissaAt (finerScale a b), finerScale a b⟩

instance : Add Decimal := ⟨add⟩
instance : Sub Decimal := ⟨sub⟩
instance : Mul Decimal := ⟨mul⟩
instance : Neg Decimal := ⟨neg⟩

def Same (a b : Decimal) : Prop :=
  a.mantissaAt (finerScale a b) = b.mantissaAt (finerScale a b)

instance (a b : Decimal) : Decidable (Same a b) := inferInstanceAs (Decidable (_ = _))

def Le (a b : Decimal) : Prop :=
  a.mantissaAt (finerScale a b) ≤ b.mantissaAt (finerScale a b)

instance : LE Decimal := ⟨Le⟩
instance (a b : Decimal) : Decidable (a ≤ b) :=
  inferInstanceAs (Decidable (a.mantissaAt (finerScale a b) ≤ b.mantissaAt (finerScale a b)))

def lower (a b : Decimal) : Decimal := if a ≤ b then a else b

/-- How many zeros after the point a one may have and still be taken for one. -/
def onePlaces : Nat := 38

def isOne (a : Decimal) : Bool :=
  decide (0 ≤ a.scale ∧ a.scale ≤ onePlaces) && a.mantissa == Int.pow 10 a.scale.toNat

end Decimal
end ValidatorDays
