import ValidatorDays.Work.Program
/-! Jobs shared out over a number of places. A job is a row of actions, each issued once the
one before it has been answered well. Jobs start in order, none starts after an action has
failed, and those under way run on to their end; the first failure is what the whole comes
to. When answers come, and whether they come before the deadline, is for the world to say. -/
namespace ValidatorDays

structure Job (A : Type) where
  first : A
  rest : List A

def Job.ending {A : Type} (actions : List A) (last : A) : Job A :=
  match actions with
  | [] => ⟨last, []⟩
  | first :: rest => ⟨first, rest ++ [last]⟩

structure Carrier (A ρ : Type) where
  start : A → Program Unit
  poll : (underWay : List A) → Program (Option (Fin underWay.length × Except StageError ρ))
  await : (underWay : List A) → Program (Option (Fin underWay.length × Except StageError ρ))

namespace Carrier

/-- With nothing under way there is nothing to look at. -/
def answered {A ρ : Type} (carrier : Carrier A ρ) :
    (underWay : List A) → Program (Option (Fin underWay.length × Except StageError ρ))
  | [] => .done none
  | action :: rest => carrier.poll (action :: rest)

def landed {n : Nat} {ε ρ : Type} (f : ε → StageError) :
    Option (Landing n ε ρ) → Option (Fin n × Except StageError ρ)
  | none => none
  | some (i, .ok a) => some (i, .ok a)
  | some (i, .error e) => some (i, .error (f e))

def writes : Carrier Write Unit where
  start w := (Program.ofOutcome (.ofChecked w.bound)).bind fun _ => .ask (.startWrite w) .done
  poll underWay := .ask (.pollWrites underWay) fun a => .done (landed .notPersisted a)
  await underWay := .ask (.awaitWrites underWay) fun a => .done (landed .notPersisted a)

def fetches : Carrier EpochRange (List FailedAttestations) where
  start range := .ask (.startFetch range) .done
  poll underWay := .ask (.pollFetches underWay) fun a => .done (landed .notAggregated a)
  await underWay := .ask (.awaitFetches underWay) fun a => .done (landed .notAggregated a)

end Carrier

namespace Group

variable {A ρ : Type}

def load : List (Job A) → Nat
  | [] => 0
  | job :: rest => job.rest.length + 1 + load rest

theorem load_append (a b : List (Job A)) : load (a ++ b) = load a + load b := by
  induction a with
  | nil => simp [load]
  | cons job rest ih => simp only [List.cons_append, load, ih]; omega

theorem load_eraseIdx (jobs : List (Job A)) (i : Fin jobs.length) :
    load (jobs.eraseIdx i) + (jobs[i].rest.length + 1) = load jobs := by
  induction jobs with
  | nil => exact i.elim0
  | cons job rest ih =>
    cases i using Fin.cases with
    | zero => simp [load]; omega
    | succ i => have := ih i; simp [load] at this ⊢; omega

theorem load_set (jobs : List (Job A)) (i : Fin jobs.length) (job : Job A) :
    load (jobs.set i job) + (jobs[i].rest.length + 1) = load jobs + (job.rest.length + 1) := by
  induction jobs with
  | nil => exact i.elim0
  | cons head rest ih =>
    cases i using Fin.cases with
    | zero => simp [load]; omega
    | succ i => have := ih i; simp [load] at this ⊢; omega

/-- A group under way. The first action of each job under way has been issued. -/
structure State (A ρ : Type) where
  waiting : List (Job A)
  underWay : List (Job A)
  results : List ρ
  failed : Option StageError

namespace State

def actions (s : State A ρ) : List A := s.underWay.map Job.first

def load (s : State A ρ) : Nat := Group.load s.waiting + Group.load s.underWay

def ready (places : Nat) (s : State A ρ) : Option (Job A × List (Job A)) :=
  match s.waiting, s.failed with
  | job :: rest, none => if s.underWay.length < places then some (job, rest) else none
  | _, _ => none

theorem ready_waiting {places : Nat} {s : State A ρ} {job : Job A} {rest : List (Job A)}
    (starts : s.ready places = some (job, rest)) : s.waiting = job :: rest := by
  unfold ready at starts
  split at starts
  · split at starts <;> simp_all
  · cases starts

def start (s : State A ρ) (job : Job A) (rest : List (Job A)) : State A ρ :=
  { s with waiting := rest, underWay := s.underWay ++ [job] }

def owner (s : State A ρ) (i : Fin s.actions.length) : Fin s.underWay.length :=
  i.cast (by simp [actions])

/-- An action of a job has been answered. Says which action the same job issues next. -/
def land (s : State A ρ) (i : Fin s.underWay.length) (answer : Except StageError ρ) :
    State A ρ × Option A :=
  match answer with
  | .error e =>
    ({ s with underWay := s.underWay.eraseIdx i, failed := s.failed.or (some e) }, none)
  | .ok a =>
    match s.underWay[i].rest with
    | [] => ({ s with underWay := s.underWay.eraseIdx i, results := a :: s.results }, none)
    | next :: rest => ({ s with underWay := s.underWay.set i ⟨next, rest⟩ }, some next)

def settle (s : State A ρ) (landing : Fin s.actions.length × Except StageError ρ) :
    State A ρ × Option A :=
  s.land (s.owner landing.1) landing.2

theorem load_land (s : State A ρ) (i : Fin s.underWay.length) (answer : Except StageError ρ) :
    (s.land i answer).1.load < s.load := by
  have erased := Group.load_eraseIdx s.underWay i
  unfold land
  split
  · simp only [load] at *; omega
  · split
    · simp only [load] at *; omega
    · rename_i next rest heq
      have moved := Group.load_set s.underWay i ⟨next, rest⟩
      simp only [load, heq, List.length_cons] at *
      omega

theorem load_settle (s : State A ρ) (landing : Fin s.actions.length × Except StageError ρ) :
    (s.settle landing).1.load < s.load :=
  s.load_land (s.owner landing.1) landing.2

end State

def issue (carrier : Carrier A ρ) : Option A → Program Unit
  | none => .done ()
  | some action => carrier.start action

/-- Takes in answers that are there and then starts what may start. Where nothing may start,
waits for an answer. -/
def loop (carrier : Carrier A ρ) (places : Nat) (late : StageError) (s : State A ρ) :
    Program (List ρ) :=
  match _starts : s.ready places with
  | some (job, rest) =>
    (carrier.answered s.actions).bind fun
      | none => (carrier.start job.first).bind fun _ => loop carrier places late (s.start job rest)
      | some landing =>
        (issue carrier (s.settle landing).2).bind fun _ =>
          loop carrier places late (s.settle landing).1
  | none =>
    match s.underWay, s.failed with
    | [], some e => .fail (.stage e)
    | [], none => .done s.results.reverse
    | _ :: _, _ =>
      (carrier.await s.actions).bind fun
        | none => .fail (.stage late)
        | some landing =>
          (issue carrier (s.settle landing).2).bind fun _ =>
            loop carrier places late (s.settle landing).1
termination_by (s.load, s.waiting.length)
decreasing_by
  · have split := State.ready_waiting _starts
    simp only [State.load, State.start, split, Group.load, Group.load_append]
    simp only [Prod.lex_def, List.length_cons]
    omega
  · have moved := s.load_settle landing
    simp only [Prod.lex_def]
    omega
  · have moved := s.load_settle landing
    simp only [Prod.lex_def]
    omega

end Group

structure Group where
  stage : String
  concurrency : Nat
  deadline : Span

namespace Group

/-- Runs the jobs, and gives what they came to in the order in which they ended. -/
def run {A ρ : Type} (g : Group) (carrier : Carrier A ρ) (jobs : List (Job A)) : Program (List ρ) :=
  loop carrier (max g.concurrency 1) (.deadlineExceeded g.stage g.deadline) ⟨jobs, [], [], none⟩

end Group
end ValidatorDays
