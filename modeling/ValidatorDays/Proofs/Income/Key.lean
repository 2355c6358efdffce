import Mathlib
import ValidatorDays.Income.History
import ValidatorDays.Proofs.Status.Books
import ValidatorDays.Proofs.Text.Numerals

namespace ValidatorDays

theorem intercalate_inj {sep : Char} {xs ys : List (List Char)} (apart : ∀ l ∈ xs, sep ∉ l)
    (apartToo : ∀ l ∈ ys, sep ∉ l) (nonempty : xs ≠ []) (nonemptyToo : ys ≠ [])
    (same : [sep].intercalate xs = [sep].intercalate ys) : xs = ys := by
  rw [← List.splitOn_intercalate sep apart nonempty, same,
    List.splitOn_intercalate sep apartToo nonemptyToo]

theorem not_mem_intChars {sep : Char} (sign : sep ≠ '-') (digit : sep.isDigit = false) (n : Int) :
    sep ∉ intChars n := by
  intro member
  rcases mem_intChars member with rfl | isDigit
  · exact sign rfl
  · exact Bool.noConfusion (digit.symm.trans isDigit)

def numbersChars (numbers : List Int) : List Char := [','].intercalate (numbers.map intChars)

theorem intChars_injective : Function.Injective intChars :=
  fun _ _ same => intText_injective (congrArg String.ofList same)

theorem numbersChars_cons (n : Int) (rest : List Int) : numbersChars (n :: rest) =
    intChars n ++ if rest = [] then [] else ',' :: numbersChars rest := by
  cases rest with
  | nil => simp [numbersChars]
  | cons m others => simp [numbersChars]

theorem not_mem_numbersChars (numbers : List Int) : ':' ∉ numbersChars numbers := by
  induction numbers with
  | nil => exact List.not_mem_nil
  | cons n rest ih =>
    rw [numbersChars_cons, List.mem_append, not_or]
    refine ⟨not_mem_intChars (by decide) (by decide) n, ?_⟩
    split
    · exact List.not_mem_nil
    · simpa using ih

theorem numbersChars_injective : Function.Injective numbersChars := by
  have something (n : Int) (rest : List Int) : numbersChars (n :: rest) ≠ [] := by
    rw [numbersChars_cons]
    exact List.append_ne_nil_of_left_ne_nil (intChars_ne_nil n) _
  have apart (numbers : List Int) : ∀ l ∈ numbers.map intChars, ',' ∉ l := by
    rw [List.forall_mem_map]
    exact fun n _ => not_mem_intChars (by decide) (by decide) n
  intro xs ys same
  cases xs with
  | nil =>
    cases ys with
    | nil => rfl
    | cons n rest => exact absurd same.symm (something n rest)
  | cons m others =>
    cases ys with
    | nil => exact absurd same (something m others)
    | cons n rest =>
      have parts := intercalate_inj (apart (m :: others)) (apart (n :: rest)) nofun nofun same
      exact intChars_injective.list_map parts

namespace IncomeRequest

variable {indices others : List ValidatorIndex}

theorem mem_insertIndex {index i : ValidatorIndex} :
    i ∈ insertIndex index indices ↔ i = index ∨ i ∈ indices := by
  induction indices with
  | nil => simp [insertIndex]
  | cons first rest ih =>
    unfold insertIndex
    split
    · simp
    · split
      · rename_i same
        simp [same]
      · simp [ih, or_left_comm]

theorem sorted_insertIndex (index : ValidatorIndex) (sorted : indices.Pairwise (· < ·)) :
    (insertIndex index indices).Pairwise (· < ·) := by
  induction indices with
  | nil => exact List.pairwise_singleton _ _
  | cons first rest ih =>
    obtain ⟨below, others⟩ := List.pairwise_cons.mp sorted
    unfold insertIndex
    split
    · rename_i before
      refine List.pairwise_cons.mpr ⟨?_, sorted⟩
      exact List.forall_mem_cons.mpr ⟨before, fun i member => Int.lt_trans before (below i member)⟩
    · rename_i notBefore
      split
      · exact sorted
      · rename_i other
        refine List.pairwise_cons.mpr ⟨fun i member => ?_, ih others⟩
        rcases mem_insertIndex.mp member with rfl | member
        · exact lt_of_le_of_ne (Int.not_lt.mp notBefore) (Ne.symm other)
        · exact below i member

theorem mem_ascending {i : ValidatorIndex} : i ∈ ascending indices ↔ i ∈ indices := by
  induction indices with
  | nil => exact Iff.rfl
  | cons first rest ih =>
    change i ∈ insertIndex first (ascending rest) ↔ _
    rw [mem_insertIndex, ih, List.mem_cons]

theorem sorted_ascending (indices : List ValidatorIndex) :
    (ascending indices).Pairwise (· < ·) := by
  induction indices with
  | nil => exact .nil
  | cons first rest ih => exact sorted_insertIndex first ih

theorem ascending_eq_iff :
    ascending indices = ascending others ↔ ∀ i, i ∈ indices ↔ i ∈ others := by
  constructor
  · intro same i
    rw [← mem_ascending, same, mem_ascending]
  · intro same
    refine (sorted_ascending indices).eq_of_mem_iff (sorted_ascending others) fun i => ?_
    rw [mem_ascending, mem_ascending]
    exact same i

def keyFields (chain : Int) (indices : List ValidatorIndex) (lower upper : Day)
    (lastFinalized : Epoch) : List (List Char) :=
  [intChars chain, "validatorIncomeHistory".toList, intChars lower.number, intChars upper.number,
    intChars lastFinalized.number, numbersChars indices]

variable (chain : Int) (lower upper : Day) (lastFinalized : Epoch)

theorem toList_cacheKey (indices : List ValidatorIndex) :
    (cacheKey chain indices lower upper lastFinalized).toList =
      [':'].intercalate (keyFields chain indices lower upper lastFinalized) := by
  simp [cacheKey, keyFields, numbersChars, intText, Day.text, Epoch.text, Function.comp_def]

theorem apart_keyFields (indices : List ValidatorIndex) :
    ∀ l ∈ keyFields chain indices lower upper lastFinalized, ':' ∉ l := by
  have number (n : Int) : ':' ∉ intChars n := not_mem_intChars (by decide) (by decide) n
  have name : ':' ∉ "validatorIncomeHistory".toList := by decide
  simp only [keyFields, List.forall_mem_cons]
  exact ⟨number _, name, number _, number _, number _, not_mem_numbersChars _, nofun⟩

variable {chain lower upper lastFinalized}

theorem cacheKey_inj {chainToo : Int} {lowerToo upperToo : Day} {lastFinalizedToo : Epoch} :
    cacheKey chain indices lower upper lastFinalized =
      cacheKey chainToo others lowerToo upperToo lastFinalizedToo ↔
    chain = chainToo ∧ indices = others ∧ lower = lowerToo ∧ upper = upperToo ∧
      lastFinalized = lastFinalizedToo := by
  constructor
  · intro same
    -- A colon is in none of the fields, so the key can be parted at its colons.
    have chars := congrArg String.toList same
    rw [toList_cacheKey, toList_cacheKey] at chars
    have fields := intercalate_inj (apart_keyFields chain lower upper lastFinalized indices)
      (apart_keyFields chainToo lowerToo upperToo lastFinalizedToo others)
      (List.cons_ne_nil _ _) (List.cons_ne_nil _ _) chars
    simp only [keyFields, List.cons.injEq, intChars_injective.eq_iff,
      numbersChars_injective.eq_iff] at fields
    obtain ⟨chains, -, lowers, uppers, epochs, numbers, -⟩ := fields
    refine ⟨chains, numbers, ?_, ?_, ?_⟩
    · exact congrArg Day.mk lowers
    · exact congrArg Day.mk uppers
    · exact congrArg Epoch.mk epochs
  · rintro ⟨rfl, rfl, rfl, rfl, rfl⟩
    rfl

theorem upperBound_eq_iff {r s : IncomeRequest} : r.upperBound = s.upperBound ↔
    r.upper = s.upper ∨ r.upper = none ∧ s.upper = some unboundedDay ∨
      r.upper = some unboundedDay ∧ s.upper = none := by
  unfold upperBound
  cases r.upper with
  | none => cases s.upper <;> simp [eq_comm]
  | some day => cases s.upper <;> simp

theorem history_reordered (r : IncomeRequest) (same : ∀ i, i ∈ others ↔ i ∈ r.indices) :
    history { r with indices := others } = r.history := by
  have numbers : ascending others = ascending r.indices := ascending_eq_iff.mpr same
  have empty : others = [] ↔ r.indices = [] := by
    simp only [List.eq_nil_iff_forall_not_mem, same]
  simp only [history, storedHistory, key, upperBound, empty]
  rw [numbers]

/-- Two requests are kept under one key if they ask for the same days of the same validators, on
one chain and at one epoch, where no upper day counts for the day that stands in for it. In what
order the validators are given, and how often each, makes no difference at all. -/
theorem key_eq_iff (r s : IncomeRequest) :
    (r.key = s.key ↔ r.chain = s.chain ∧ (∀ i, i ∈ r.indices ↔ i ∈ s.indices) ∧
      r.lower = s.lower ∧ (r.upper = s.upper ∨ r.upper = none ∧ s.upper = some unboundedDay ∨
        r.upper = some unboundedDay ∧ s.upper = none) ∧ r.lastFinalized = s.lastFinalized) ∧
    ∀ others, (∀ i, i ∈ others ↔ i ∈ r.indices) →
      history { r with indices := others } = r.history := by
  refine ⟨?_, fun others => history_reordered r⟩
  rw [← upperBound_eq_iff, ← ascending_eq_iff]
  exact cacheKey_inj

theorem key_eq_iff_reordered :
    (IncomeRequest.mk 1 [5, 3] ⟨0⟩ none ⟨1000⟩).key = (mk 1 [3, 5, 3] ⟨0⟩ none ⟨1000⟩).key ∧
      (IncomeRequest.mk 1 [5, 3] ⟨0⟩ none ⟨1000⟩).history =
        (mk 1 [3, 5, 3] ⟨0⟩ none ⟨1000⟩).history := by
  have same (i : ValidatorIndex) : i ∈ [5, 3] ↔ i ∈ [3, 5, 3] := by grind
  have told := key_eq_iff (mk 1 [3, 5, 3] ⟨0⟩ none ⟨1000⟩) (mk 1 [5, 3] ⟨0⟩ none ⟨1000⟩)
  refine ⟨(told.1.mpr ?_).symm, told.2 [5, 3] same⟩
  exact ⟨rfl, fun i => (same i).symm, rfl, .inl rfl, rfl⟩

/-- A request up to the day that stands in for a missing one has the key of a request without an
upper day, and another answer: only the latter ends with an estimate. -/
theorem keys_collide :
    (IncomeRequest.mk 1 [7] ⟨0⟩ none ⟨1000⟩).key = (mk 1 [7] ⟨0⟩ (some ⟨65536⟩) ⟨1000⟩).key ∧
      (∃ trace, Program.Runs (mk 1 [7] ⟨0⟩ none ⟨1000⟩).history trace (.ok [⟨⟨0⟩, 0, none⟩])) ∧
      ∃ trace, Program.Runs (mk 1 [7] ⟨0⟩ (some ⟨65536⟩) ⟨1000⟩).history trace (.ok []) := by
  have unbounded := Program.runs_observe (Books.calm 0) (mk 1 [7] ⟨0⟩ none ⟨1000⟩).history
    (.opened .empty)
  have estimated : ((mk 1 [7] ⟨0⟩ none ⟨1000⟩).history.observe (Books.calm 0)
      (.opened .empty)).2 = .ok [⟨⟨0⟩, 0, none⟩] := by cbv
  rw [estimated] at unbounded
  have bounded := Program.runs_observe (Books.calm 0)
    (mk 1 [7] ⟨0⟩ (some ⟨65536⟩) ⟨1000⟩).history (.opened .empty)
  exact ⟨rfl, ⟨_, unbounded⟩, _, bounded⟩

end IncomeRequest
end ValidatorDays
