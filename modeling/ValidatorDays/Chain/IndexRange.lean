import ValidatorDays.Chain.Slot

namespace ValidatorDays

structure IndexRange where
  start : ValidatorIndex
  stop : ValidatorIndex
  deriving DecidableEq, Repr

namespace IndexRange

/-- Steps through `0 .. count`. A step of more than 32 bits reaches only as far as its low
bits say, and never past `count`. -/
def split (count : ValidatorIndex) (batchSize : Int) : List IndexRange :=
  let step := max batchSize 1
  (List.range ((count + step - 1) / step).toNat).map fun (k : Nat) =>
    let start := step * k
    ⟨start, min (Bounds.int32.clamp (start + Bounds.int32.wrap step)) count⟩

def indices (r : IndexRange) : List ValidatorIndex :=
  (List.range (r.stop - r.start).toNat).map fun (k : Nat) => r.start + k

end IndexRange
end ValidatorDays
