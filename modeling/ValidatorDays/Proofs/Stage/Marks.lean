import Mathlib
import ValidatorDays.Proofs.Stage.Conduct
import ValidatorDays.Proofs.Status.Books

namespace ValidatorDays

open Program

theorem Day.mem_epochs (day : Day) (e : Epoch) : e ∈ day.epochs ↔
    225 * day.number ≤ e.number ∧ e.number < 225 * day.number + 225 := by
  change day.number * 225 ≤ e.number ∧ e.number ≤ day.number * 225 + (225 - 1) ↔ _
  omega

def Program.Event.Marks (e : Event) : Prop :=
  ∃ day category, Write.markExported day category ∈ e.1.writes

namespace Stage

variable {day : Day} {category : Category}

theorem OwnOnly.not_marks {seen : List Event} (ownOnly : OwnOnly day category seen) :
    ∀ e ∈ seen, ¬ e.Marks := by
  rintro e he ⟨d, c, marks⟩
  exact ownOnly e he _ marks

theorem mark_marks (answer : (mark day category).Answer) :
    Event.Marks ⟨mark day category, answer⟩ :=
  ⟨day, category, List.mem_singleton_self _⟩

theorem exportCategory_gate (settings : Settings) (day : Day) (category : Category) :
    ∃ next, exportCategory settings day category = .ask (gate day) next := by
  cases category <;> exact ⟨_, rfl⟩

section

variable {p : Program Unit} {trace : List Event} {result : Outcome Unit}

theorem Gated.silent (stage : Gated day category p) {answer : Except DatabaseError Int}
    {rest : List Event} (run : Runs p (⟨gate day, answer⟩ :: rest) result)
    (short : ∀ n, answer = .ok n → n < epochsPerDay) : rest = [] := by
  cases rest with
  | nil => rfl
  | cons e others =>
    have split : Runs p ([⟨gate day, answer⟩] ++ e :: others) result := run
    rcases stage.asked split with ⟨impossible, -⟩ | ⟨passed, -⟩
    · cases impossible
    · obtain ⟨n, rest, same, enough⟩ := passed
      cases same
      exact absurd (short n rfl) (Int.not_lt.mpr enough)

theorem Gated.marks (stage : Gated day category p) {before after : List Event} {e : Event}
    (run : Runs p (before ++ e :: after) result) (marks : e.Marks) :
    e.1 = mark day category ∧ after = [] ∧ WentWell before ∧ ∀ e' ∈ before, ¬ e'.Marks := by
  have asked : Allows day category before e.1 := by
    simpa using stage.asked run
  obtain ⟨d, c, marking⟩ := marks
  rcases asked with ⟨-, isGate⟩ | ⟨-, ownOnly, ⟨within, -⟩ | ⟨isMark, well, -⟩⟩
  · simp [isGate, gate, Request.writes] at marking
  · exact (within _ marking).elim
  refine ⟨isMark, ?_, well, ownOnly.not_marks⟩
  cases after with
  | nil => rfl
  | cons next others =>
    have further : Allows day category (before ++ [e]) next.1 := by
      rw [List.append_cons] at run
      simpa using stage.asked run
    rcases further with ⟨impossible, -⟩ | ⟨-, still, -⟩
    · simp at impossible
    · exact absurd ⟨d, c, marking⟩ (still.not_marks e (by simp))

theorem Gated.ok_iff (stage : Gated day category p) (run : Runs p trace result) :
    result = .ok () ↔ ⟨mark day category, .ok ()⟩ ∈ trace := by
  have ends := stage.ends run
  rw [List.nil_append] at ends
  cases result with
  | ok _ =>
    obtain ⟨before, rfl, -⟩ := ends
    simp
  | error cause =>
    have unmarked := Failed.unmarked ends
    refine ⟨nofun, fun marked => ?_⟩
    rcases unmarked with ownOnly | ⟨before, e, rfl, ownOnly⟩
    · exact absurd (mark_marks _) (ownOnly.not_marks _ marked)
    · rcases List.mem_append.mp marked with earlier | last
      · exact absurd (mark_marks _) (ownOnly.not_marks _ earlier)
      · cases List.mem_singleton.mp last

end

/-- Whatever is answered, a stage asks first whether the 225 epochs of its day are finalized, and
nothing more unless they are. What marks a category marks its own, comes last and only once all
else went well; and the stage goes well just when its mark does. -/
theorem exportCategory_marks_last (settings : Settings) (day : Day) (category : Category)
    {trace : List Event} {result : Outcome Unit}
    (run : Runs (exportCategory settings day category) trace result) :
    (∃ (answer : Except DatabaseError Int) (rest : List Event),
      trace = ⟨.query (.finalizedEpochs day.epochs), answer⟩ :: rest ∧
        ((∀ n, answer = .ok n → n < 225) → rest = [] ∧ ∃ cause, result = .error cause)) ∧
    (∀ e : Epoch, e ∈ day.epochs ↔
      225 * day.number ≤ e.number ∧ e.number < 225 * day.number + 225) ∧
    (∀ before e after, trace = before ++ e :: after → e.Marks →
      e.1 = .write (.markExported day category) ∧ after = [] ∧ WentWell before ∧
        ∀ e' ∈ before, ¬ e'.Marks) ∧
    (result = .ok () ↔ ⟨.write (.markExported day category), .ok ()⟩ ∈ trace) := by
  have stage := exportCategory_gated settings day category
  have onlyIf := stage.ok_iff run
  refine ⟨?_, day.mem_epochs, ?_, onlyIf⟩
  · obtain ⟨next, opens⟩ := exportCategory_gate settings day category
    have gated := run
    rw [opens] at gated
    cases gated with
    | @ask _ _ rest _ answer others =>
      refine ⟨answer, rest, rfl, fun short => ?_⟩
      have silent := stage.silent run short
      refine ⟨silent, ?_⟩
      cases result with
      | error cause => exact ⟨cause, rfl⟩
      | ok _ =>
        have marked := onlyIf.mp rfl
        rw [silent] at marked
        cases List.mem_singleton.mp marked
  · rintro before e after rfl marks
    exact stage.marks run marks

theorem exportCategory_marks_last_calm :
    ∃ trace, Runs (exportCategory .standard ⟨3⟩ .balance) trace (.ok ()) ∧
      ⟨.write (.markExported ⟨3⟩ .balance), .ok ()⟩ ∈ trace := by
  have run := runs_observe (Books.calm 0) (exportCategory .standard ⟨3⟩ .balance) (.opened .empty)
  have well : ((exportCategory .standard ⟨3⟩ .balance).observe (Books.calm 0)
      (.opened .empty)).2 = .ok () := by cbv
  rw [well] at run
  exact ⟨_, run, (exportCategory_marks_last _ _ _ run).2.2.2.mp rfl⟩

end Stage
end ValidatorDays
