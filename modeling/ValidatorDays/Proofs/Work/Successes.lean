import Mathlib.Data.List.Forall2
import ValidatorDays.Proofs.Work.Both
import ValidatorDays.Upsert.Merge
import ValidatorDays.Stage.Gate

namespace ValidatorDays

section MapM

variable {α β ε : Type} {f : α → Except ε β} {items : List α}

theorem mapM_ok {results : List β} (mapped : items.mapM f = .ok results) :
    List.Forall₂ (fun a b => f a = .ok b) items results := by
  induction items generalizing results with
  | nil =>
    cases mapped
    exact .nil
  | cons a others ih =>
    rw [List.mapM_cons] at mapped
    obtain ⟨b, first, onward⟩ := bind_eq_ok.mp mapped
    obtain ⟨more, rest, same⟩ := bind_eq_ok.mp onward
    cases same
    exact .cons first (ih rest)

theorem mapM_found {g : α → β} (each : ∀ a ∈ items, f a = .ok (g a)) :
    items.mapM f = .ok (items.map g) := by
  induction items with
  | nil => rfl
  | cons a others ih =>
    obtain ⟨first, rest⟩ := List.forall_mem_cons.mp each
    rw [List.mapM_cons, first, ih rest]
    rfl

theorem mapM_mem {results : List β} (mapped : items.mapM f = .ok results) {b : β}
    (member : b ∈ results) : ∃ a ∈ items, f a = .ok b := by
  have each := mapM_ok mapped
  clear mapped
  induction each with
  | nil => cases member
  | cons first _ ih =>
    rcases List.mem_cons.mp member with rfl | later
    · exact ⟨_, List.mem_cons_self, first⟩
    · obtain ⟨a, inside, same⟩ := ih later
      exact ⟨a, List.mem_cons_of_mem _ inside, same⟩

theorem mapM_error {e : ε} (failed : items.mapM f = .error e) : ∃ a ∈ items, f a = .error e := by
  induction items with
  | nil => cases failed
  | cons a others ih =>
    rw [List.mapM_cons] at failed
    rcases bind_eq_error.mp failed with first | ⟨b, -, onward⟩
    · exact ⟨a, List.mem_cons_self, first⟩
    · rcases bind_eq_error.mp onward with rest | ⟨more, -, impossible⟩
      · obtain ⟨a', inside, same⟩ := ih rest
        exact ⟨a', List.mem_cons_of_mem _ inside, same⟩
      · cases impossible

end MapM

namespace Program

variable {α β : Type} {trace : List Event} {b : β}

theorem runs_done {result : Outcome β} : Runs (.done b) trace result ↔
    trace = [] ∧ result = .ok b := by
  constructor
  · intro run
    cases run
    exact ⟨rfl, rfl⟩
  · rintro ⟨rfl, rfl⟩
    exact .done b

theorem runs_ask {r : Request} {next : r.Answer → Program β} {answer : r.Answer}
    {result : Outcome β} : Runs (.ask r next) (⟨r, answer⟩ :: trace) result ↔
      Runs (next answer) trace result := by
  constructor
  · intro run
    cases run with
    | ask _ rest => exact rest
  · exact .ask answer

theorem runs_outcome {o result : Outcome β} :
    Runs (ofOutcome o) trace result ↔ trace = [] ∧ result = o := by
  constructor
  · intro run
    cases o with
    | ok a =>
      cases run
      exact ⟨rfl, rfl⟩
    | error cause =>
      cases run
      exact ⟨rfl, rfl⟩
  · rintro ⟨rfl, rfl⟩
    cases result with
    | ok a => exact .done a
    | error cause => exact .fail cause

namespace Runs

theorem bind_ok {p : Program α} {f : α → Program β} (run : Runs (p.bind f) trace (.ok b)) :
    ∃ first a rest, trace = first ++ rest ∧ Runs p first (.ok a) ∧ Runs (f a) rest (.ok b) := by
  rcases runs_bind.mp run with found | ⟨cause, -, failed⟩
  · exact found
  · cases failed

theorem mapFailure_ok {p : Program β} {f : Failure → Failure}
    (run : Runs (p.mapFailure f) trace (.ok b)) : Runs p trace (.ok b) := by
  obtain ⟨inner, run, same⟩ := runs_mapFailure.mp run
  cases inner with
  | ok a =>
    cases same
    exact run
  | error cause => cases same

theorem outcome_ok {o : Outcome β} (run : Runs (ofOutcome o) trace (.ok b)) :
    trace = [] ∧ o = .ok b :=
  (runs_outcome.mp run).imp_right Eq.symm

theorem lifted_ok {c : Checked β} (run : Runs (ofOutcome (.ofChecked c)) trace (.ok b)) :
    trace = [] ∧ c = .ok b := by
  cases c with
  | ok a =>
    cases run
    exact ⟨rfl, rfl⟩
  | error fault => cases run

theorem checked_ok {c : Checked α} {f : α → Program β}
    (run : Runs ((ofOutcome (.ofChecked c)).bind f) trace (.ok b)) :
    ∃ a, c = .ok a ∧ Runs (f a) trace (.ok b) := by
  cases c with
  | ok a => exact ⟨a, rfl, run⟩
  | error fault => cases run

theorem staged_ok {c : Except StageError α} {f : α → Program β}
    (run : Runs ((ofOutcome (.ofStage c)).bind f) trace (.ok b)) :
    ∃ a, c = .ok a ∧ Runs (f a) trace (.ok b) := by
  cases c with
  | ok a => exact ⟨a, rfl, run⟩
  | error cause => cases run

theorem read_ok {q : Query} {f : q.Rows → Program β}
    (run : Runs ((readStage q).bind f) trace (.ok b)) :
    ∃ rows rest, trace = ⟨.query q, .ok rows⟩ :: rest ∧ Runs (f rows) rest (.ok b) := by
  cases run with
  | ask answer rest =>
    cases answer with
    | ok rows => exact ⟨rows, _, rfl, rest⟩
    | error cause => cases rest

theorem ask_ok {q : IndexerQuery} {f : q.Rows → Program β}
    (run : Runs ((askIndexer q).bind f) trace (.ok b)) :
    ∃ rows rest, trace = ⟨.indexer q, .ok rows⟩ :: rest ∧ Runs (f rows) rest (.ok b) := by
  cases run with
  | ask answer rest =>
    cases answer with
    | ok rows => exact ⟨rows, _, rfl, rest⟩
    | error cause => cases rest

theorem query_ok {q : Query} {rows : q.Rows} (run : Runs (query q) trace (.ok rows)) :
    trace = [⟨.query q, .ok rows⟩] := by
  cases run with
  | ask answer rest =>
    cases answer with
    | ok rows =>
      cases rest
      rfl
    | error cause => cases rest

/-- Two reads at the same time are answered in either order. -/
theorem reads_ok {q q' : Query} {rows : q.Rows × q'.Rows}
    (run : Runs ((readStage q).both (readStage q')) trace (.ok rows)) :
    Woven [⟨.query q, .ok rows.1⟩] [⟨.query q', .ok rows.2⟩] trace := by
  obtain ⟨own, other, first, second, woven⟩ := run.both_ok
  rw [first.mapFailure_ok.query_ok, second.mapFailure_ok.query_ok] at woven
  exact woven

theorem indexer_ok {q : IndexerQuery} {rows : q.Rows} (run : Runs (indexer q) trace (.ok rows)) :
    trace = [⟨.indexer q, .ok rows⟩] := by
  cases run with
  | ask answer rest =>
    cases answer with
    | ok rows =>
      cases rest
      rfl
    | error cause => cases rest

theorem price_ok {currency : String} {value : Decimal}
    (run : Runs (price currency) trace (.ok value)) : trace = [⟨.price currency, .ok value⟩] := by
  cases run with
  | ask answer rest =>
    cases answer with
    | ok value =>
      cases rest
      rfl
    | error cause => cases rest

theorem write_ok {w : Write} (run : Runs (Program.write w) trace (.ok ())) :
    trace = [⟨.write w, .ok ()⟩] := by
  obtain ⟨_, -, run⟩ := run.checked_ok
  cases run with
  | ask answer rest =>
    cases answer with
    | ok _ =>
      cases rest
      rfl
    | error cause => cases rest

theorem writeStage_ok {w : Write} (run : Runs (writeStage w) trace (.ok ())) :
    trace = [⟨.write w, .ok ()⟩] := run.mapFailure_ok.write_ok

end Runs

/-- A transaction with these statements, answered well from its begin to its commit. -/
def committed (ws : List Write) : List Event :=
  ⟨.begin, .ok ()⟩ :: ws.map (fun w => ⟨.write w, .ok ()⟩) ++ [⟨.commit, .ok ()⟩]

namespace Runs

theorem writeTogether_ok {ws : List Write} (run : Runs (writeTogether ws) trace (.ok ())) :
    trace = committed ws := by
  have statements {ws : List Write} {trace : List Event}
      (run : Runs (ws.forM Program.write) trace (.ok ())) :
      trace = ws.map fun w => ⟨.write w, .ok ()⟩ := by
    induction ws generalizing trace with
    | nil =>
      cases run
      rfl
    | cons w others ih =>
      obtain ⟨first, _, rest, rfl, one, more⟩ := run.bind_ok
      rw [one.write_ok, ih more]
      rfl
  cases run.mapFailure_ok with
  | ask answer rest =>
    cases answer with
    | error cause => cases rest
    | ok _ =>
      have onward : Runs ((ws.forM Program.write).bind fun _ => commit) _ (.ok ()) := rest
      obtain ⟨inside, _, last, rfl, written, ended⟩ := onward.bind_ok
      cases ended with
      | ask answer rest =>
        cases answer with
        | error cause => cases rest
        | ok _ =>
          cases rest
          rw [statements written]
          rfl

end Runs

def queries (trace : List Event) : List Query :=
  trace.filterMap fun e => match e.1 with
    | .query q => some q
    | _ => none

theorem queries_append (first rest : List Event) :
    queries (first ++ rest) = queries first ++ queries rest := List.filterMap_append

theorem Woven.queries {own other seen : List Event} (woven : Woven own other seen) :
    (queries seen).Perm (Program.queries own ++ Program.queries other) :=
  woven.filterMap_perm fun _ => rfl

theorem queries_committed (ws : List Write) : queries (committed ws) = [] := by
  induction ws with
  | nil => rfl
  | cons w others ih => exact ih

end Program
end ValidatorDays
