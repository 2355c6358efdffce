import ValidatorDays.Proofs.Status.Books
import ValidatorDays.Proofs.Work.Successes
/-! Works that issue statements one by one, each once the one before it has been answered. Such a
work has a script, and a run of it is the script up to the first statement that fails. Of the
statements of a transaction none shows then, wherever it has failed. -/
namespace ValidatorDays

open Program

abbrev Failure.notPersisted (e : DatabaseError) : Failure := .stage (.notPersisted e)

/-- A statement that is waited for. -/
inductive Statement where
  | begin
  | write (w : Write)
  | commit

namespace Statement

def answered : Statement → Except DatabaseError Unit → Event
  | .begin, answer => ⟨.begin, answer⟩
  | .write w, answer => ⟨.write w, answer⟩
  | .commit, answer => ⟨.commit, answer⟩

def begins : Statement → Bool
  | .begin => true
  | _ => false

/-- The statements with which batches are written, all or none. -/
def together : List Batch → List Statement
  | [] => []
  | batches => .begin :: (batches.map (fun b => .write (.merge b)) ++ [.commit])

end Statement

/-- The statements have been issued in order, and all have been answered well or the last of them
has failed. -/
inductive Played : List Statement → List Event → Except DatabaseError Unit → Prop where
  | whole (script : List Statement) : Played script (script.map (·.answered (.ok ()))) (.ok ())
  | broken (before : List Statement) (s : Statement) (after : List Statement) (e : DatabaseError) :
      Played (before ++ s :: after) (before.map (·.answered (.ok ())) ++ [s.answered (.error e)])
        (.error e)

namespace Played

variable {script more : List Statement} {trace rest : List Event} {e : DatabaseError}
  {ended : Except DatabaseError Unit}

theorem append (first : Played script trace (.ok ())) (second : Played more rest ended) :
    Played (script ++ more) (trace ++ rest) ended := by
  cases first with
  | whole =>
    cases second with
    | whole =>
      rw [← List.map_append]
      exact .whole _
    | broken before s after e =>
      rw [← List.append_assoc, ← List.append_assoc, ← List.map_append]
      exact .broken _ s after e

theorem append_error (first : Played script trace (.error e)) (more : List Statement) :
    Played (script ++ more) trace (.error e) := by
  cases first with
  | broken before s after e =>
    rw [List.append_assoc]
    exact .broken before s _ e

/-- Either all but the last have been answered well, or the last has not been issued. -/
theorem before_last {last : Statement} (played : Played (script ++ [last]) trace ended) :
    trace = script.map (·.answered (.ok ())) ++ [last.answered ended] ∨
      ∃ before s after e, script = before ++ s :: after ∧ ended = .error e ∧
        trace = before.map (·.answered (.ok ())) ++ [s.answered (.error e)] := by
  generalize whole : script ++ [last] = all at played
  cases played with
  | whole =>
    rw [← whole, List.map_append]
    exact .inl rfl
  | broken before s after e =>
    rcases List.eq_nil_or_concat after with rfl | ⟨others, final, rfl⟩
    · obtain ⟨rfl, same⟩ := List.append_inj' whole rfl
      cases same
      exact .inl rfl
    · rw [List.concat_eq_append, ← List.cons_append, ← List.append_assoc] at whole
      obtain ⟨rfl, -⟩ := List.append_inj' whole rfl
      exact .inr ⟨before, s, others, e, rfl, rfl, rfl⟩

theorem single (s : Statement) (answer : Except DatabaseError Unit) :
    Played [s] [s.answered answer] answer := by
  cases answer with
  | ok _ => exact .whole [s]
  | error e => exact .broken [] s [] e

end Played

namespace Program

variable {α β : Type} {tell : DatabaseError → Failure}

/-- Each run of the work plays the script, and tells of the statement that has failed. -/
def Scripted (tell : DatabaseError → Failure) (script : List Statement) (p : Program α) : Prop :=
  ∀ trace result, Runs p trace result → ∃ ended, Played script trace ended ∧
    result.map (fun _ => ()) = ended.mapError tell

namespace Scripted

theorem done (a : α) : (Program.done a).Scripted tell [] := by
  intro trace result run
  cases run
  exact ⟨.ok (), .whole [], rfl⟩

theorem statement {r : Request} {s : Statement} {next : r.Answer → Program Unit}
    (same : ∀ answer, ∃ given, (⟨r, answer⟩ : Event) = s.answered given ∧
      next answer = ofOutcome (given.mapError tell)) : (Program.ask r next).Scripted tell [s] := by
  intro trace result run
  cases run with
  | ask answer rest =>
    obtain ⟨given, event, onward⟩ := same answer
    rw [onward] at rest
    obtain ⟨rfl, rfl⟩ := runs_outcome.mp rest
    rw [event]
    exact ⟨given, .single s given, by cases given <;> rfl⟩

theorem bind {script more : List Statement} {p : Program α} {f : α → Program β}
    (first : p.Scripted tell script) (next : ∀ a, (f a).Scripted tell more) :
    (p.bind f).Scripted tell (script ++ more) := by
  intro trace result run
  obtain ⟨begun, a, rest, rfl, own, onward⟩ | ⟨cause, own, rfl⟩ := runs_bind.mp run
  · obtain ⟨ended, played, same⟩ := first _ _ own
    obtain ⟨endedThen, playedThen, sameThen⟩ := next a _ _ onward
    cases ended with
    | error e => cases same
    | ok _ => exact ⟨endedThen, played.append playedThen, sameThen⟩
  · obtain ⟨ended, played, same⟩ := first _ _ own
    cases ended with
    | ok _ => cases same
    | error e => exact ⟨.error e, played.append_error more, same⟩

theorem mapFailure {script : List Statement} {p : Program α} (scripted : p.Scripted tell script)
    (f : Failure → Failure) : (p.mapFailure f).Scripted (fun e => f (tell e)) script := by
  intro trace result run
  obtain ⟨inner, own, rfl⟩ := runs_mapFailure.mp run
  obtain ⟨ended, played, same⟩ := scripted _ _ own
  refine ⟨ended, played, ?_⟩
  cases ended with
  | ok _ =>
    cases inner with
    | ok a => rfl
    | error cause => cases same
  | error e =>
    cases inner with
    | ok a => cases same
    | error cause =>
      cases same
      rfl

theorem ofDatabase (answer : Except DatabaseError Unit) :
    Program.ofDatabase answer = ofOutcome (answer.mapError .database) := by
  cases answer <;> rfl

theorem write {w : Write} (bound : w.bound = .ok ()) :
    (Program.write w).Scripted .database [.write w] := by
  have one : (Program.ask (.write w) Program.ofDatabase).Scripted .database [.write w] :=
    statement fun answer => ⟨answer, rfl, ofDatabase answer⟩
  rwa [Program.write, bound]

theorem writes {ws : List Write} (bound : ∀ w ∈ ws, w.bound = .ok ()) :
    (ws.forM Program.write).Scripted .database (ws.map .write) := by
  induction ws with
  | nil => exact .done ()
  | cons w others ih =>
    obtain ⟨first, rest⟩ := List.forall_mem_cons.mp bound
    exact (write first).bind fun _ => ih rest

theorem writeTogether {ws : List Write} (bound : ∀ w ∈ ws, w.bound = .ok ()) :
    (ValidatorDays.writeTogether ws).Scripted .notPersisted
      (.begin :: (ws.map .write ++ [.commit])) := by
  have begins : Program.begin.Scripted .database [.begin] :=
    statement fun answer => ⟨answer, rfl, ofDatabase answer⟩
  have commits : Program.commit.Scripted .database [.commit] :=
    statement fun answer => ⟨answer, rfl, ofDatabase answer⟩
  exact (begins.bind fun _ => (writes bound).bind fun _ => commits).mapFailure .asStage

theorem merges (batches : List Batch) :
    (ValidatorDays.writeTogether (batches.map .merge)).Scripted .notPersisted
      (.begin :: (batches.map (fun b => .write (.merge b)) ++ [.commit])) := by
  have bound : ∀ w ∈ batches.map Write.merge, w.bound = .ok () := by
    intro w member
    obtain ⟨b, -, rfl⟩ := List.mem_map.mp member
    rfl
  have script := writeTogether bound
  rwa [List.map_map] at script

theorem mergeRowsTogether {t : Target} {rows : List Row} {size : Nat} {batches : List Batch}
    (planned : Batch.plan t rows size = .ok batches) :
    (ValidatorDays.mergeRowsTogether t rows size).Scripted .notPersisted
      (Statement.together batches) := by
  unfold ValidatorDays.mergeRowsTogether
  rw [planned]
  cases batches with
  | nil => exact .done 0
  | cons b others =>
    have whole := (merges (b :: others)).bind fun _ => done rows.length
    rwa [List.append_nil] at whole

theorem writeStage {w : Write} (bound : w.bound = .ok ()) :
    (ValidatorDays.writeStage w).Scripted .notPersisted [.write w] :=
  (write bound).mapFailure .asStage

end Scripted

def Event.begins : Event → Bool
  | ⟨.begin, _⟩ => true
  | _ => false

end Program

namespace Statement

variable {batches : List Batch}

theorem together_eq (nonempty : batches ≠ []) : together batches =
    .begin :: (batches.map (fun b => .write (.merge b)) ++ [.commit]) := by
  cases batches with
  | nil => exact absurd rfl nonempty
  | cons b others => rfl

theorem shown_inside (held ws : List Write) (rest : List Event) :
    Transaction.shown (some held) (ws.map (fun w => (write w).answered (.ok ())) ++ rest) =
      Transaction.shown (some (held ++ ws)) rest := by
  induction ws generalizing held with
  | nil => rw [List.append_nil, List.map_nil, List.nil_append]
  | cons w others ih =>
    rw [List.map_cons, List.cons_append, Transaction.shown, List.append_cons]
    exact ih _

theorem shown_failed (held : Program.Transaction) (s : Statement) (e : DatabaseError) :
    Transaction.shown held [s.answered (.error e)] = [] := by
  cases s <;> cases held <;> rfl

theorem shown_together (batches : List Batch) (rest : List Event) :
    Transaction.shown none ((together batches).map (·.answered (.ok ())) ++ rest) =
      batches.map .merge ++ Transaction.shown none rest := by
  cases batches with
  | nil => rfl
  | cons b others =>
    have inside := shown_inside [] ((b :: others).map .merge) (commit.answered (.ok ()) :: rest)
    rw [List.map_map] at inside
    rw [together_eq (List.cons_ne_nil b others), List.map_cons, List.map_append, List.map_map,
      List.cons_append, List.append_assoc]
    exact inside

theorem shown_broken {before after : List Statement} {s : Statement}
    (script : together batches = before ++ s :: after) (e : DatabaseError) :
    Transaction.shown none (before.map (·.answered (.ok ())) ++ [s.answered (.error e)]) = [] := by
  cases before with
  | nil => exact shown_failed none s e
  | cons first others =>
    cases batches with
    | nil => cases script
    | cons b more =>
      rw [together_eq (List.cons_ne_nil b more)] at script
      obtain ⟨rfl, inner⟩ : begin = first ∧
          (b :: more).map (fun b => write (.merge b)) ++ [commit] = others ++ s :: after :=
        List.cons.inj script
      have length := congrArg List.length inner
      simp only [List.length_append, List.length_cons, List.length_nil] at length
      have early : others <+: (b :: more).map fun b => write (.merge b) :=
        List.prefix_of_prefix_length_le ⟨_, inner.symm⟩ ⟨_, rfl⟩ (by omega)
      obtain ⟨done, -, rfl⟩ := List.prefix_map_iff.mp early
      have inside := shown_inside [] (done.map .merge) [s.answered (.error e)]
      rw [List.map_map, shown_failed] at inside
      rw [List.map_cons, List.map_map]
      exact inside

end Statement

/-- Batches are written together, and the mark comes after all of them or not at all. Without
batches there is the mark alone. -/
structure AllOrNothing (batches : List Batch) (mark : Write) (trace : List Event)
    (ended : Except DatabaseError Unit) : Prop where
  inOrder : Played (Statement.together batches ++ [.write mark]) trace ended
  begins : trace.countP Event.begins ≤ 1
  marked : ∀ answer, ⟨.write mark, answer⟩ ∈ trace → ended = answer ∧
    trace = (Statement.together batches).map (·.answered (.ok ())) ++ [⟨.write mark, answer⟩] ∧
    Transaction.shown none trace =
      batches.map .merge ++ Transaction.shown none [⟨.write mark, answer⟩]
  unmarked : (∀ answer, ⟨.write mark, answer⟩ ∉ trace) →
    (∃ e, ended = .error e) ∧ Transaction.shown none trace = []
  nothing : batches = [] → trace = [⟨.write mark, ended⟩]

namespace Statement

theorem begins_answered (s : Statement) (answer : Except DatabaseError Unit) :
    (s.answered answer).begins = s.begins := by
  cases s <;> rfl

theorem countP_begins_together (batches : List Batch) (mark : Write) :
    (together batches ++ [write mark]).countP begins ≤ 1 := by
  cases batches with
  | nil => exact Nat.zero_le 1
  | cons b others =>
    have noBegin : ((b :: others).map fun b => write (.merge b)).countP begins = 0 := by
      simp [begins]
    rw [together_eq (List.cons_ne_nil b others), List.cons_append, List.countP_cons,
      List.countP_append, List.countP_append, noBegin]
    exact Nat.le_refl 1

theorem ne_write_of_together {batches : List Batch} {mark : Write} (other : ∀ b, mark ≠ .merge b)
    {s : Statement} (inside : s ∈ together batches) (answer : Except DatabaseError Unit)
    (given : Except DatabaseError Unit) : s.answered given ≠ ⟨.write mark, answer⟩ := by
  cases batches with
  | nil => cases inside
  | cons b others =>
    rw [together_eq (List.cons_ne_nil b others)] at inside
    rcases List.mem_cons.mp inside with rfl | inside
    · exact nofun
    · rcases List.mem_append.mp inside with inside | inside
      · obtain ⟨batch, -, rfl⟩ := List.mem_map.mp inside
        intro same
        cases same
        exact other batch rfl
      · cases List.mem_singleton.mp inside
        exact nofun

end Statement

theorem Played.countP_begins {script : List Statement} {trace : List Event}
    {ended : Except DatabaseError Unit} (played : Played script trace ended) :
    trace.countP Event.begins ≤ script.countP Statement.begins := by
  have same (given : Except DatabaseError Unit) :
      Event.begins ∘ (·.answered given) = Statement.begins :=
    funext fun s => s.begins_answered given
  cases played with
  | whole =>
    have all : (script.map (·.answered (.ok ()))).countP Event.begins =
        script.countP Statement.begins := by rw [List.countP_map, same]
    exact Nat.le_of_eq all
  | broken before s after e =>
    have one : [s.answered (.error e)].countP Event.begins = [s].countP Statement.begins := by
      simp only [List.countP_cons, List.countP_nil, s.begins_answered]
    rw [List.append_cons before, List.countP_append, List.countP_map, same, one, List.countP_append,
      List.countP_append]
    exact Nat.le_add_right _ _

theorem Played.allOrNothing {batches : List Batch} {mark : Write} (other : ∀ b, mark ≠ .merge b)
    {trace : List Event} {ended : Except DatabaseError Unit}
    (played : Played (Statement.together batches ++ [.write mark]) trace ended) :
    AllOrNothing batches mark trace ended := by
  have once := Nat.le_trans played.countP_begins
    (Statement.countP_begins_together batches mark)
  have last : Statement.answered (.write mark) ended = ⟨.write mark, ended⟩ := rfl
  have own := fun (s : Statement) (inside : s ∈ Statement.together batches) =>
    Statement.ne_write_of_together other inside
  rcases played.before_last with rfl | ⟨before, s, after, e, script, rfl, rfl⟩
  · rw [last] at played once ⊢
    refine ⟨played, once, fun answer member => ?_, fun absent => ?_, ?_⟩
    · have same : ended = answer := by
        rcases List.mem_append.mp member with early | late
        · obtain ⟨s, inside, same⟩ := List.mem_map.mp early
          exact absurd same (own s inside answer (.ok ()))
        · cases List.mem_singleton.mp late
          rfl
      subst same
      exact ⟨rfl, rfl, Statement.shown_together batches _⟩
    · exact absurd (List.mem_append_right _ List.mem_cons_self) (absent ended)
    · rintro rfl
      rfl
  · have early : ∀ t ∈ before ++ [s], t ∈ Statement.together batches := by
      intro t member
      rw [script, List.append_cons]
      exact List.mem_append_left _ member
    have unmarked : ∀ answer, ⟨.write mark, answer⟩ ∉
        before.map (·.answered (.ok ())) ++ [s.answered (.error e)] := by
      intro answer member
      rcases List.mem_append.mp member with first | final
      · obtain ⟨t, inside, same⟩ := List.mem_map.mp first
        exact own t (early t (List.mem_append_left _ inside)) answer _ same
      · exact own s (early s (by simp)) answer _ (List.mem_singleton.mp final).symm
    refine ⟨played, once, fun answer member => absurd member (unmarked answer),
      fun _ => ⟨⟨e, rfl⟩, Statement.shown_broken script e⟩, ?_⟩
    rintro rfl
    simp [Statement.together] at script

end ValidatorDays
