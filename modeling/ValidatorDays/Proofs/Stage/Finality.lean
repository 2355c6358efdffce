import Mathlib
import ValidatorDays.Proofs.Work.Successes

namespace ValidatorDays

namespace EpochRange

variable {range : EpochRange} {final : Finset Epoch}

def finalized (range : EpochRange) (final : Finset Epoch) : Int :=
  (final.filter (· ∈ range)).card

noncomputable def toFinset (range : EpochRange) : Finset Epoch :=
  (Finset.Icc range.first.number range.last.number).map
    ⟨Epoch.mk, fun _ _ same => Epoch.mk.inj same⟩

theorem mem_toFinset {epoch : Epoch} : epoch ∈ range.toFinset ↔ epoch ∈ range := by
  rw [toFinset, Finset.mem_map]
  constructor
  · rintro ⟨number, inside, rfl⟩
    exact Finset.mem_Icc.mp inside
  · exact fun inside => ⟨epoch.number, Finset.mem_Icc.mpr inside, rfl⟩

theorem card_toFinset (forward : range.first ≤ range.last) :
    (range.toFinset.card : Int) = range.last.number - range.first.number + 1 := by
  have forward : range.first.number ≤ range.last.number := forward
  rw [toFinset, Finset.card_map, Int.card_Icc]
  omega

theorem filter_subset : final.filter (· ∈ range) ⊆ range.toFinset := by
  intro epoch counted
  exact mem_toFinset.mpr (Finset.mem_filter.mp counted).2

theorem finalized_eq_iff (forward : range.first ≤ range.last) :
    range.finalized final = range.last.number - range.first.number + 1 ↔
      ∀ epoch ∈ range, epoch ∈ final := by
  rw [← card_toFinset forward, finalized, Nat.cast_inj]
  constructor
  · intro same epoch inside
    have all := Finset.eq_of_subset_of_card_le filter_subset same.ge
    have counted := all.symm ▸ mem_toFinset.mpr inside
    exact (Finset.mem_filter.mp counted).1
  · intro all
    congr 1
    ext epoch
    rw [Finset.mem_filter, mem_toFinset]
    exact and_iff_right_of_imp (all epoch)

def count (range : EpochRange) : Int := range.last.number - range.first.number + 1

theorem finalized_le (final : Finset Epoch) (forward : range.first ≤ range.last) :
    range.finalized final ≤ range.count := by
  rw [count, ← card_toFinset forward, finalized, Nat.cast_le]
  exact Finset.card_le_card filter_subset

end EpochRange

open Program

section Gate

variable {day : Day} {range : EpochRange} {final : Finset Epoch} {n : Int} {result : Outcome Unit}

theorem runs_ensureEpochsFinalized :
    Runs (ensureEpochsFinalized day range) [⟨.query (.finalizedEpochs range), .ok n⟩] result ↔
      result = .ofStage (checkFinalized day n) := by
  change Runs (.ask (.query (.finalizedEpochs range)) _) _ _ ↔ _
  rw [runs_ask]
  change Runs (ofOutcome (.ofStage (checkFinalized day n))) [] _ ↔ _
  rw [runs_outcome]
  exact and_iff_right rfl

theorem checkFinalized_of_few (tooFew : n < epochsPerDay) :
    checkFinalized day n = .error (.notFinalized day n epochsPerDay) := if_pos tooFew

theorem checkFinalized_of_many (many : epochsPerDay ≤ n) : checkFinalized day n = .ok () :=
  if_neg (not_lt.mpr many)

theorem ensureEpochsFinalized_counted :
    Runs (ensureEpochsFinalized day range) [⟨.query (.finalizedEpochs range), .ok n⟩] (.ok ()) ↔
      epochsPerDay ≤ n := by
  rw [runs_ensureEpochsFinalized]
  rcases lt_or_ge n epochsPerDay with tooFew | many
  · rw [checkFinalized_of_few tooFew]
    exact iff_of_false nofun (not_le.mpr tooFew)
  · rw [checkFinalized_of_many many]
    exact iff_of_true rfl many

/-- What is said of the range is the case: all its epochs are final, or so many out of so many. -/
inductive EpochRange.GateOutcome (range : EpochRange) (final : Finset Epoch) (day : Day) :
    Outcome Unit → Prop where
  | passes (all : ∀ epoch ∈ range, epoch ∈ final) : GateOutcome range final day (.ok ())
  | stops (lacking : ¬ ∀ epoch ∈ range, epoch ∈ final) : GateOutcome range final day
      (.error (.stage (.notFinalized day (range.finalized final) range.count)))

theorem gateOutcome_ok_iff :
    range.GateOutcome final day (.ok ()) ↔ ∀ epoch ∈ range, epoch ∈ final := by
  refine ⟨fun outcome => ?_, .passes⟩
  cases outcome with
  | passes all => exact all

theorem gateOutcome_error_iff {expected : Int} : range.GateOutcome final day
    (.error (.stage (.notFinalized day (range.finalized final) expected))) ↔
      (¬ ∀ epoch ∈ range, epoch ∈ final) ∧ expected = range.count := by
  constructor
  · intro outcome
    cases outcome with
    | stops lacking => exact ⟨lacking, rfl⟩
  · rintro ⟨lacking, rfl⟩
    exact .stops lacking

theorem gateOutcome_checkFinalized_iff (day : Day) (forward : range.first ≤ range.last) :
    range.GateOutcome final day (.ofStage (checkFinalized day (range.finalized final))) ↔
      range.count = epochsPerDay ∨
        epochsPerDay < range.count ∧ ∀ epoch ∈ range, epoch ∈ final := by
  have all : range.finalized final = range.count ↔ ∀ epoch ∈ range, epoch ∈ final :=
    EpochRange.finalized_eq_iff forward
  have atMost := EpochRange.finalized_le final forward
  rcases lt_or_ge (range.finalized final) epochsPerDay with tooFew | many
  · rw [checkFinalized_of_few tooFew]
    refine gateOutcome_error_iff.trans ?_
    rw [← all]
    omega
  · rw [checkFinalized_of_many many]
    refine gateOutcome_ok_iff.trans ?_
    rw [← all]
    omega

/-- The gate lets pass a range with as many final epochs as a day has, and else names their number
and that of a day. So it tells what is the case of a range as long as a day, and of a longer one all
of whose epochs are final. Of a shorter range it never does, nor of a longer one that lacks one. -/
theorem finality_told_iff (forward : range.first ≤ range.last) :
    (∀ result, Runs (ensureEpochsFinalized day range)
        [⟨.query (.finalizedEpochs range), .ok (range.finalized final)⟩] result ↔
      epochsPerDay ≤ range.finalized final ∧ result = .ok () ∨
        range.finalized final < epochsPerDay ∧ result =
          .error (.stage (.notFinalized day (range.finalized final) epochsPerDay))) ∧
    ((∃ result, Runs (ensureEpochsFinalized day range)
        [⟨.query (.finalizedEpochs range), .ok (range.finalized final)⟩] result ∧
      range.GateOutcome final day result) ↔
        range.count = epochsPerDay ∨
          epochsPerDay < range.count ∧ ∀ epoch ∈ range, epoch ∈ final) := by
  constructor
  · intro result
    rw [runs_ensureEpochsFinalized]
    rcases lt_or_ge (range.finalized final) epochsPerDay with tooFew | many
    · have stopped : ¬ epochsPerDay ≤ range.finalized final := not_le.mpr tooFew
      rw [checkFinalized_of_few tooFew, or_iff_right (stopped ·.1), and_iff_right tooFew]
      rfl
    · have passed : ¬ range.finalized final < epochsPerDay := not_lt.mpr many
      rw [checkFinalized_of_many many, or_iff_left (passed ·.1), and_iff_right many]
      rfl
  · rw [← gateOutcome_checkFinalized_iff day forward]
    constructor
    · rintro ⟨result, run, outcome⟩
      rwa [← runs_ensureEpochsFinalized.mp run]
    · intro outcome
      exact ⟨_, runs_ensureEpochsFinalized.mpr rfl, outcome⟩

end Gate

/-- Of the first day two epochs are final, and the gate says two of 225. -/
theorem finality_told_iff_two_final : (Epoch.mk 0 ≤ ⟨224⟩) ∧
    ∃ result, Runs (ensureEpochsFinalized ⟨0⟩ ⟨⟨0⟩, ⟨224⟩⟩)
        [⟨.query (.finalizedEpochs ⟨⟨0⟩, ⟨224⟩⟩), .ok 2⟩] result ∧
      EpochRange.GateOutcome ⟨⟨0⟩, ⟨224⟩⟩ {⟨0⟩, ⟨1⟩, ⟨300⟩} ⟨0⟩ result := by
  have outcome := (@finality_told_iff ⟨0⟩ ⟨⟨0⟩, ⟨224⟩⟩ {⟨0⟩, ⟨1⟩, ⟨300⟩} (by decide)).2
  exact ⟨by decide, outcome.mpr (.inl (by decide))⟩

def firstTen : EpochRange := ⟨⟨0⟩, ⟨9⟩⟩

/-- All of ten epochs are final, and the gate says that ten of 225 are. -/
theorem ten_final_stopped : (∀ epoch ∈ firstTen, epoch ∈ firstTen.toFinset) ∧
    firstTen.finalized firstTen.toFinset = 10 ∧
    ∀ result, Runs (ensureEpochsFinalized ⟨0⟩ firstTen)
        [⟨.query (.finalizedEpochs firstTen), .ok 10⟩] result →
      result = .error (.stage (.notFinalized ⟨0⟩ 10 225)) ∧
        ¬ firstTen.GateOutcome firstTen.toFinset ⟨0⟩ result := by
  have all : ∀ epoch ∈ firstTen, epoch ∈ firstTen.toFinset := fun _ => EpochRange.mem_toFinset.mpr
  have ten : firstTen.finalized firstTen.toFinset = 10 :=
    (EpochRange.finalized_eq_iff (by decide)).mpr all
  refine ⟨all, ten, fun result run => ?_⟩
  obtain rfl := runs_ensureEpochsFinalized.mp run
  rw [checkFinalized_of_few (by decide)]
  exact ⟨rfl, nofun⟩

end ValidatorDays
