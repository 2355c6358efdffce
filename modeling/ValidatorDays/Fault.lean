/-! Conditions that stop a computation for good. They are no answers: no caller
recovers from one, and none is ever retried. -/
namespace ValidatorDays

inductive Fault where
  | overflow
  | gweiAddition
  | gweiSubtraction
  | weiAddition
  | weiSubtraction
  | negativeEpochRange (first last : Int)
  | negativeBlockRange
  | notABool (value key : String)
  | dateOutOfRange
  | cutInsideCharacter
  | queueTooLong
  | tooManyPieces
  | divisionByZero
  deriving DecidableEq, Repr

abbrev Checked (α : Type) := Except Fault α

theorem bind_eq_ok {ε α β : Type} {c : Except ε α} {f : α → Except ε β} {b : β} :
    (do f (← c)) = .ok b ↔ ∃ a, c = .ok a ∧ f a = .ok b := by
  cases c with
  | ok a => exact ⟨fun same => ⟨a, rfl, same⟩, fun ⟨_, same, rest⟩ => Except.ok.inj same ▸ rest⟩
  | error cause => exact ⟨nofun, nofun⟩

theorem bind_eq_error {ε α β : Type} {c : Except ε α} {f : α → Except ε β} {e : ε} :
    (do f (← c)) = .error e ↔ c = .error e ∨ ∃ a, c = .ok a ∧ f a = .error e := by
  cases c with
  | ok a =>
    refine ⟨fun same => .inr ⟨a, rfl, same⟩, ?_⟩
    rintro (impossible | ⟨_, same, rest⟩)
    · cases impossible
    · cases same
      exact rest
  | error cause =>
    constructor
    · intro same
      cases same
      exact .inl rfl
    · rintro (same | ⟨_, impossible, -⟩)
      · cases same
        rfl
      · cases impossible

/-- Only the faults this program names itself come with words. -/
def Fault.message? : Fault → Option String
  | .gweiAddition => some "caused overflow in gwei addition"
  | .gweiSubtraction => some "caused underflow in gwei subtraction"
  | .weiAddition => some "caused overflow in wei addition"
  | .weiSubtraction => some "caused underflow in wei subtraction"
  | .negativeEpochRange first last =>
    some ("tried to create negative epoch range " ++ toString first ++ "-" ++ toString last)
  | .negativeBlockRange => some "tried to create negative block range"
  | .notABool value key => some ("invalid bool value " ++ value ++ " for " ++ key)
  | .overflow | .dateOutOfRange | .cutInsideCharacter | .queueTooLong | .tooManyPieces
  | .divisionByZero => none

end ValidatorDays
