import ValidatorDays.Proofs.Work.Keeps

namespace ValidatorDays.Program

variable {α β γ σ : Type}

theorem bind_assoc (p : Program α) (f : α → Program β) (g : β → Program γ) :
    (p.bind f).bind g = p.bind fun a => (f a).bind g := by
  induction p with
  | done a => rfl
  | fail cause => rfl
  | ask r next ih => simp only [bind, ih]

theorem bind_done (p : Program α) : p.bind .done = p := by
  induction p with
  | done a => rfl
  | fail cause => rfl
  | ask r next ih => simp only [bind, ih]

theorem mapFailure_bind (p : Program α) (f : α → Program β) (g : Failure → Failure) :
    (p.bind f).mapFailure g = (p.mapFailure g).bind fun a => (f a).mapFailure g := by
  induction p with
  | done a => rfl
  | fail cause => rfl
  | ask r next ih => simp only [bind, mapFailure, ih]

theorem Runs.discard {p : Program α} {trace : List Event} {result : Outcome α}
    (run : Runs p trace result) (b : β) :
    Runs (p.bind fun _ => .done b) trace (result.map fun _ => b) := by
  induction run with
  | done a => exact .done b
  | fail cause => exact .fail cause
  | ask answer rest ih => exact .ask answer ih

def inTurn (work : σ → Program Unit) : List σ → Program Unit
  | [] => .done ()
  | step :: rest => (work step).bind fun _ => inTurn work rest

theorem inTurn_append (work : σ → Program Unit) (first rest : List σ) :
    inTurn work (first ++ rest) = (inTurn work first).bind fun _ => inTurn work rest := by
  induction first with
  | nil => rfl
  | cons step others ih => simp only [List.cons_append, inTurn, ih, bind_assoc]

theorem inTurn_map {τ : Type} (work : σ → Program Unit) (f : τ → σ) (steps : List τ) :
    inTurn work (steps.map f) = inTurn (fun s => work (f s)) steps := by
  induction steps with
  | nil => rfl
  | cons step others ih => simp only [List.map_cons, inTurn, ih]

theorem mapFailure_inTurn (work : σ → Program Unit) (steps : List σ) (g : Failure → Failure) :
    (inTurn work steps).mapFailure g = inTurn (fun s => (work s).mapFailure g) steps := by
  induction steps with
  | nil => rfl
  | cons step others ih => simp only [inTurn, mapFailure_bind, ih]

theorem Keeps.inTurn {may : List Event → Request → Prop} {inv : List Event → Prop}
    {bad : List Event → Failure → Prop} {work : σ → Program Unit} {steps : List σ}
    (each : ∀ step ∈ steps, ∀ seen, inv seen →
      (work step).Keeps may (fun seen _ => inv seen) bad seen) {before : List Event}
    (holds : inv before) :
    (Program.inTurn work steps).Keeps may (fun seen _ => inv seen) bad before := by
  induction steps generalizing before with
  | nil => exact holds
  | cons step others ih =>
    obtain ⟨first, rest⟩ := List.forall_mem_cons.mp each
    exact (first before holds).bind fun _ _ still => ih rest still

structure Entry (σ : Type) where
  step : σ
  events : List Event
  outcome : Outcome Unit

/-- The journal of a run, step by step. Nothing follows a step that failed. -/
inductive Taken (work : σ → Program Unit) : List σ → List (Entry σ) → Outcome Unit → Prop where
  | nothing : Taken work [] [] (.ok ())
  | fails {step : σ} {rest : List σ} {events : List Event} {cause : Failure}
      (run : Runs (work step) events (.error cause)) :
      Taken work (step :: rest) [⟨step, events, .error cause⟩] (.error cause)
  | goes {step : σ} {rest : List σ} {events : List Event} {journal : List (Entry σ)}
      {result : Outcome Unit} (run : Runs (work step) events (.ok ()))
      (others : Taken work rest journal result) :
      Taken work (step :: rest) (⟨step, events, .ok ()⟩ :: journal) result

theorem runs_inTurn {work : σ → Program Unit} {steps : List σ} {trace : List Event}
    {result : Outcome Unit} : Runs (inTurn work steps) trace result ↔
      ∃ journal, Taken work steps journal result ∧ trace = journal.flatMap Entry.events := by
  induction steps generalizing trace result with
  | nil =>
    constructor
    · intro run
      cases run
      exact ⟨[], .nothing, rfl⟩
    · rintro ⟨journal, taken, rfl⟩
      cases taken
      exact .done ()
  | cons step rest ih =>
    simp only [inTurn, runs_bind]
    constructor
    · rintro (⟨first, _, others, rfl, run, later⟩ | ⟨cause, run, rfl⟩)
      · obtain ⟨journal, taken, rfl⟩ := ih.mp later
        exact ⟨_, .goes run taken, by simp⟩
      · exact ⟨_, .fails run, by simp⟩
    · rintro ⟨journal, taken, rfl⟩
      cases taken with
      | fails run => exact .inr ⟨_, by simpa using run, rfl⟩
      | goes run others => exact .inl ⟨_, (), _, by simp, run, ih.mpr ⟨_, others, rfl⟩⟩

namespace Taken

variable {work : σ → Program Unit} {steps : List σ} {journal : List (Entry σ)}
  {result : Outcome Unit}

theorem steps_prefix (taken : Taken work steps journal result) :
    journal.map Entry.step <+: steps := by
  induction taken with
  | nothing => exact List.prefix_rfl
  | fails run => exact ⟨_, rfl⟩
  | goes run others ih => simpa using ih

theorem entry_runs (taken : Taken work steps journal result) :
    ∀ e ∈ journal, Runs (work e.step) e.events e.outcome := by
  induction taken with
  | nothing => exact List.forall_mem_nil _
  | fails run => exact List.forall_mem_cons.mpr ⟨run, List.forall_mem_nil _⟩
  | goes run others ih => exact List.forall_mem_cons.mpr ⟨run, ih⟩

theorem of_ok (taken : Taken work steps journal (.ok ())) :
    journal.map Entry.step = steps ∧ ∀ e ∈ journal, e.outcome = .ok () := by
  generalize ends : (.ok () : Outcome Unit) = result at taken
  induction taken with
  | nothing => simp
  | fails run => cases ends
  | goes run others ih =>
    subst ends
    obtain ⟨all, well⟩ := ih rfl
    exact ⟨by simp [all], List.forall_mem_cons.mpr ⟨rfl, well⟩⟩

theorem of_error {cause : Failure} (taken : Taken work steps journal (.error cause)) :
    ∃ before last, journal = before ++ [last] ∧ last.outcome = .error cause ∧
      ∀ e ∈ before, e.outcome = .ok () := by
  generalize ends : (.error cause : Outcome Unit) = result at taken
  induction taken with
  | nothing => cases ends
  | fails run =>
    cases ends
    exact ⟨[], _, rfl, rfl, by simp⟩
  | goes run others ih =>
    obtain ⟨before, last, rfl, failed, well⟩ := ih ends
    exact ⟨_ :: before, last, rfl, failed, List.forall_mem_cons.mpr ⟨rfl, well⟩⟩

end Taken
end ValidatorDays.Program
