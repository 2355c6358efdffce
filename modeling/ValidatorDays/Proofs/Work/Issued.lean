import Mathlib
import ValidatorDays.Proofs.Work.Groups

namespace ValidatorDays

open Program

namespace Program.Event

def fetched : Event → List (EpochRange × List FailedAttestations)
  | ⟨.pollFetches underWay, some (i, .ok found)⟩
  | ⟨.awaitFetches underWay, some (i, .ok found)⟩ => [(underWay.get i, found)]
  | _ => []

end Program.Event

namespace Request

def OfWrites : Request → Prop
  | .startWrite _ | .pollWrites _ | .awaitWrites _ => True
  | _ => False

def OfFetches : Request → Prop
  | .startFetch _ | .pollFetches _ | .awaitFetches _ => True
  | _ => False

theorem OfWrites.not_ofFetches {r : Request} (asks : r.OfWrites) : ¬ r.OfFetches := by
  cases r with
  | startWrite | pollWrites | awaitWrites => exact id
  | _ => exact asks.elim

end Request

namespace Program.Event

theorem startsWrite_eq_nil {e : Event} (other : ¬ e.1.OfWrites) : e.startsWrite = [] := by
  unfold startsWrite
  split
  · exact absurd trivial other
  · rfl

theorem landsWrite_eq_nil {e : Event} (other : ¬ e.1.OfWrites) : e.landsWrite = [] := by
  unfold landsWrite
  split
  · exact absurd trivial other
  · exact absurd trivial other
  · rfl

theorem startsFetch_eq_nil {e : Event} (other : ¬ e.1.OfFetches) : e.startsFetch = [] := by
  unfold startsFetch
  split
  · exact absurd trivial other
  · rfl

theorem landsFetch_eq (e : Event) : e.landsFetch = e.fetched.map Prod.fst := by
  obtain ⟨r, answer⟩ := e
  cases r with
  | pollFetches underWay => obtain _ | ⟨i, cause | found⟩ := answer <;> rfl
  | awaitFetches underWay => obtain _ | ⟨i, cause | found⟩ := answer <;> rfl
  | _ => rfl

theorem fetched_eq_nil {e : Event} (other : ¬ e.1.OfFetches) : e.fetched = [] := by
  unfold fetched
  split
  · exact absurd trivial other
  · exact absurd trivial other
  · rfl

end Program.Event

namespace Group

variable {A ρ : Type}

namespace State

def ahead (s : State A ρ) : List A :=
  s.waiting.flatMap Job.actions ++ s.underWay.flatMap Job.rest

theorem ahead_start {s : State A ρ} {job : Job A} {rest : List (Job A)}
    (waiting : s.waiting = job :: rest) :
    s.ahead.Perm (job.first :: (s.start job rest).ahead) := by
  simp only [ahead, start, waiting, List.flatMap_cons, List.flatMap_append, List.flatMap_nil,
    List.append_nil, Job.actions, List.cons_append, List.append_assoc]
  exact .cons _ (List.perm_append_comm.trans (.of_eq (List.append_assoc ..)))

theorem ahead_ok (s : State A ρ) (i : Fin s.actions.length) (a : ρ) :
    s.ahead.Perm ((s.settle (i, .ok a)).2.toList ++ (s.settle (i, .ok a)).1.ahead) := by
  have inside : (s.owner i).val < s.underWay.length := (s.owner i).isLt
  have taken := (List.getElem_cons_eraseIdx_perm inside).symm.flatMap_right Job.rest
  simp only [settle, land]
  split
  · rename_i ended
    replace ended : (s.underWay[(s.owner i).val]).rest = [] := ended
    rw [List.flatMap_cons, ended, List.nil_append] at taken
    exact taken.append_left _
  · rename_i next more onward
    replace onward : (s.underWay[(s.owner i).val]).rest = next :: more := onward
    have moved := (List.set_perm_cons_eraseIdx inside (⟨next, more⟩ : Job A)).flatMap_right Job.rest
    rw [List.flatMap_cons, onward] at taken
    rw [List.flatMap_cons] at moved
    exact ((taken.trans (.cons next moved.symm)).append_left _).trans List.perm_middle

theorem ahead_error (s : State A ρ) (i : Fin s.actions.length) (e : StageError) :
    (s.settle (i, .error e)).1.ahead.Sublist s.ahead := by
  have erased : (s.underWay.eraseIdx (s.owner i)).Sublist s.underWay := List.eraseIdx_sublist _ _
  exact (List.Sublist.refl _).append (erased.flatMap Job.rest)

theorem settle_last {s : State A ρ} {i : Fin s.actions.length} (a : ρ)
    (last : (s.underWay[s.owner i]).rest = []) :
    s.settle (i, .ok a) =
      ({ s with underWay := s.underWay.eraseIdx (s.owner i), results := a :: s.results },
        none) := by
  simp only [settle, land]
  split
  · rfl
  · rename_i onward
    cases last.symm.trans onward

end State

/-- What an answer tells: nothing is started by it, and a good one is the answer of one action. -/
def AnswersOne (starts : Event → List A) (lands : Event → List (A × ρ)) (before : List Event)
    (underWay : List A) (seen : List Event) :
    Option (Fin underWay.length × Except StageError ρ) → Prop
  | some (i, .ok a) => seen.flatMap starts = before.flatMap starts ∧
      seen.flatMap lands = before.flatMap lands ++ [(underWay.get i, a)]
  | _ => seen.flatMap starts = before.flatMap starts ∧ seen.flatMap lands = before.flatMap lands

/-- A carrier whose events show what it has started, and what it was told. -/
structure Traced (carrier : Carrier A ρ) (starts : Event → List A) (lands : Event → List (A × ρ)) :
    Prop where
  start : ∀ h a, (carrier.start a).Keeps (fun _ _ => True)
    (fun seen _ => seen.flatMap starts = h.flatMap starts ++ [a] ∧
      seen.flatMap lands = h.flatMap lands)
    (fun seen _ => seen.flatMap starts = h.flatMap starts) h
  look : ∀ h underWay, (carrier.answered underWay).Keeps (fun _ _ => True)
    (AnswersOne starts lands h underWay) (fun _ _ => False) h
  wait : ∀ h underWay, (carrier.await underWay).Keeps (fun _ _ => True)
    (AnswersOne starts lands h underWay) (fun _ _ => False) h

/-- What was issued and what is still ahead come from the jobs, and nothing is lost before an action
has failed. -/
structure Issued (starts : Event → List A) (lands : Event → List (A × ρ)) (jobs : List (Job A))
    (seen : List Event) (s : State A ρ) : Prop where
  subperm : (seen.flatMap starts ++ s.ahead).Subperm (jobs.flatMap Job.actions)
  perm : s.failed = none → (seen.flatMap starts ++ s.ahead).Perm (jobs.flatMap Job.actions)
  single : (∀ job ∈ jobs, job.rest = []) →
    (∀ job ∈ s.waiting, job.rest = []) ∧ (∀ job ∈ s.underWay, job.rest = []) ∧
      (seen.flatMap lands).map Prod.snd = s.results.reverse

section Traced

variable {carrier : Carrier A ρ} {starts : Event → List A} {lands : Event → List (A × ρ)}
  {jobs : List (Job A)}

theorem Traced.settles (traced : Traced carrier starts lands) {before seen : List Event}
    {s : State A ρ} (issued : Issued starts lands jobs before s)
    (landing : Fin s.actions.length × Except StageError ρ) (idle : List Event → Prop)
    (told : AnswersOne starts lands before s.actions seen (some landing)) :
    Looked carrier (fun _ _ => True)
      (fun seen _ => (seen.flatMap starts).Subperm (jobs.flatMap Job.actions))
      (Issued starts lands jobs) s idle seen (some landing) := by
  have waiting := s.settle_waiting landing
  obtain ⟨i, answer⟩ := landing
  cases answer with
  | error e =>
    obtain ⟨started, landed⟩ := told
    have fewer := (List.subperm_append_left (before.flatMap starts)).mpr
      (s.ahead_error i e).subperm
    refine ⟨started ▸ fewer.trans issued.subperm, ?_, fun single => ?_⟩
    · intro unfailed
      simp [State.settle, State.land] at unfailed
    · obtain ⟨ahead, underWay, results⟩ := issued.single single
      exact ⟨ahead, fun job member => underWay job (List.mem_of_mem_eraseIdx member),
        landed ▸ results⟩
  | ok a =>
    obtain ⟨started, landed⟩ := told
    have unfailed := (s.settle_ok i a).1
    have given := issued.subperm
    have whole := issued.perm
    have moved := (s.ahead_ok i a).append_left (before.flatMap starts)
    rw [← started] at given whole moved
    have single : (∀ job ∈ jobs, job.rest = []) →
        (s.settle (i, .ok a)).2 = none ∧ (∀ job ∈ (s.settle (i, .ok a)).1.waiting, job.rest = []) ∧
          (∀ job ∈ (s.settle (i, .ok a)).1.underWay, job.rest = []) ∧
            (seen.flatMap lands).map Prod.snd = (s.settle (i, .ok a)).1.results.reverse := by
      intro single
      obtain ⟨ahead, underWay, results⟩ := issued.single single
      rw [State.settle_last a (underWay _ (List.getElem_mem _))]
      refine ⟨rfl, ahead, fun job member => underWay job (List.mem_of_mem_eraseIdx member), ?_⟩
      rw [landed, List.map_append, results, List.reverse_cons]
      rfl
    simp only [Looked]
    cases next : (s.settle (i, .ok a)).2 with
    | none =>
      rw [next, Option.toList_none, List.nil_append] at moved
      exact ⟨moved.symm.subperm.trans given,
        fun still => moved.symm.trans (whole (unfailed ▸ still)), fun all => (single all).2⟩
    | some b =>
      rw [next, Option.toList_some, ← List.append_assoc] at moved
      refine (traced.start seen b).mono (fun _ _ => id) ?_ ?_
      · rintro h _ ⟨startedToo, landedToo⟩
        rw [← startedToo] at moved
        refine ⟨moved.symm.subperm.trans given,
          fun still => moved.symm.trans (whole (unfailed ▸ still)), fun all => ?_⟩
        cases next.symm.trans (single all).1
      · intro h _ same
        rw [same]
        exact (List.sublist_append_left _ _).subperm.trans given

theorem Traced.rule (traced : Traced carrier starts lands) {places : Nat} (positive : 0 < places)
    (late : StageError) : Rule carrier places late (fun _ _ => True)
      (fun seen results => (seen.flatMap starts).Perm (jobs.flatMap Job.actions) ∧
        ((∀ job ∈ jobs, job.rest = []) → (seen.flatMap lands).map Prod.snd = results))
      (fun seen _ => (seen.flatMap starts).Subperm (jobs.flatMap Job.actions))
      (Issued starts lands jobs) := by
  constructor
  case starts =>
    intro h s job rest issued begins
    have waiting := State.ready_waiting begins
    have moved := (State.ahead_start waiting).append_left (h.flatMap starts)
    rw [List.append_cons] at moved
    refine (traced.start h job.first).mono (fun _ _ => id) ?_ ?_
    · rintro seen _ ⟨started, landed⟩
      rw [← started] at moved
      refine ⟨moved.symm.subperm.trans issued.subperm,
        fun still => moved.symm.trans (issued.perm still), fun single => ?_⟩
      obtain ⟨ahead, underWay, results⟩ := issued.single single
      rw [waiting, List.forall_mem_cons] at ahead
      refine ⟨ahead.2, fun other member => ?_, landed ▸ results⟩
      rcases List.mem_append.mp member with member | member
      · exact underWay other member
      · cases List.mem_singleton.mp member
        exact ahead.1
    · intro seen _ same
      rw [same]
      exact (List.sublist_append_left _ _).subperm.trans issued.subperm
  case looks =>
    intro h s issued
    refine (traced.look h s.actions).mono (fun _ _ => id) ?_ fun _ _ => False.elim
    intro seen landing told
    cases landing with
    | some landing => exact traced.settles issued landing _ told
    | none =>
      obtain ⟨started, landed⟩ := told
      exact ⟨started ▸ issued.subperm, started ▸ issued.perm, landed ▸ issued.single⟩
  case waits =>
    intro h s issued _
    refine (traced.wait h s.actions).mono (fun _ _ => id) ?_ fun _ _ => False.elim
    intro seen landing told
    cases landing with
    | some landing => exact traced.settles issued landing _ told
    | none =>
      change (seen.flatMap starts).Subperm _
      rw [told.1]
      exact (List.sublist_append_left _ _).subperm.trans issued.subperm
  case fails =>
    intro h s e issued _ _
    exact (List.sublist_append_left _ _).subperm.trans issued.subperm
  case ends =>
    intro h s issued idle nothing unfailed
    have waiting : s.waiting = [] := by
      cases jobs : s.waiting with
      | nil => rfl
      | cons job rest => simp [State.ready, jobs, unfailed, nothing, positive] at idle
    have all := issued.perm unfailed
    simp only [State.ahead, waiting, nothing, List.flatMap_nil, List.append_nil] at all
    exact ⟨all, fun single => (issued.single single).2.2⟩

/-- Whatever the world does, a group issues no action of its jobs twice. When it comes to a good end
it has issued all of them, and its results are what it was told. -/
theorem Traced.run (traced : Traced carrier starts lands) (g : Group) :
    (g.run carrier jobs).Keeps (fun _ _ => True)
      (fun seen results => (seen.flatMap starts).Perm (jobs.flatMap Job.actions) ∧
        ((∀ job ∈ jobs, job.rest = []) → (seen.flatMap lands).map Prod.snd = results))
      (fun seen _ => (seen.flatMap starts).Subperm (jobs.flatMap Job.actions)) [] := by
  have all : ([].flatMap starts ++ State.ahead ⟨jobs, [], ([] : List ρ), none⟩) =
      jobs.flatMap Job.actions := List.append_nil _
  refine loop_keeps (traced.rule (by omega) _) _ [] ⟨?_, fun _ => ?_, fun single => ?_⟩
  · rw [all]
  · rw [all]
  · exact ⟨single, nofun, rfl⟩

end Traced

/-- What is told is a failure of others, if any. -/
def Foreign {n : Nat} (landing : Option (Fin n × Except StageError ρ)) : Prop :=
  ∀ i e, landing = some (i, .error e) → ¬ (Failure.stage e).IsOwn

theorem run_foreign {carrier : Carrier A ρ} {own : A → Prop}
    (start : ∀ h a, own a →
      (carrier.start a).Keeps (fun _ _ => True) (fun _ _ => True) (fun _ _ => False) h)
    (look : ∀ h underWay, (carrier.answered underWay).Keeps (fun _ _ => True)
      (fun _ => Foreign) (fun _ _ => False) h)
    (wait : ∀ h underWay, (carrier.await underWay).Keeps (fun _ _ => True)
      (fun _ => Foreign) (fun _ _ => False) h)
    (g : Group) {jobs : List (Job A)} (owned : ∀ job ∈ jobs, ∀ a ∈ job.actions, own a) :
    (g.run carrier jobs).Keeps (fun _ _ => True) (fun _ _ => True) (fun _ cause => ¬ cause.IsOwn)
      [] := by
  let inv (_ : List Event) (s : State A ρ) : Prop :=
    (∀ job ∈ s.waiting, ∀ a ∈ job.actions, own a) ∧
    (∀ job ∈ s.underWay, ∀ a ∈ job.actions, own a) ∧
    ∀ e, s.failed = some e → ¬ (Failure.stage e).IsOwn
  have starts (h : List Event) {good : List Event → Unit → Prop} (a : A) (mine : own a)
      (next : ∀ h, good h ()) : (carrier.start a).Keeps (fun _ _ => True) good
        (fun _ cause => ¬ cause.IsOwn) h :=
    (start h a mine).mono (fun _ _ => id) (fun h _ _ => next h) fun _ _ => False.elim
  have settles (h : List Event) (s : State A ρ) (steady : inv h s)
      (landing : Fin s.actions.length × Except StageError ρ) (foreign : Foreign (some landing)) :
      (issue carrier (s.settle landing).2).Keeps (fun _ _ => True)
        (fun h _ => inv h (s.settle landing).1) (fun _ cause => ¬ cause.IsOwn) h := by
    obtain ⟨ahead, underWay, failed⟩ := steady
    obtain ⟨ownedNow, ownedNext⟩ := s.settle_owned landing underWay
    have still : inv h (s.settle landing).1 := by
      refine ⟨s.settle_waiting landing ▸ ahead, ownedNow, fun e => ?_⟩
      obtain ⟨i, answer⟩ := landing
      cases answer with
      | ok a => exact fun now => failed e ((s.settle_ok i a).1 ▸ now)
      | error e' =>
        simp only [State.settle, State.land]
        cases before : s.failed with
        | none =>
          intro now
          cases now
          exact foreign i e rfl
        | some first => exact fun now => failed e (before.trans now)
    cases next : (s.settle landing).2 with
    | none => exact still
    | some a => exact starts h a (ownedNext a next) fun _ => still
  have rule (late : StageError) (lately : ¬ (Failure.stage late).IsOwn) :
      Rule carrier (max g.concurrency 1) late (fun _ _ => True) (fun _ _ => True)
        (fun _ cause => ¬ cause.IsOwn) inv := by
    constructor
    case starts =>
      intro h s job rest steady begins
      obtain ⟨ahead, underWay, failed⟩ := steady
      rw [State.ready_waiting begins, List.forall_mem_cons] at ahead
      refine starts h job.first (ahead.1 _ List.mem_cons_self) fun _ => ⟨ahead.2, ?_, failed⟩
      intro other member
      rcases List.mem_append.mp member with member | member
      · exact underWay other member
      · cases List.mem_singleton.mp member
        exact ahead.1
    case looks =>
      intro h s steady
      refine (look h s.actions).mono (fun _ _ => id) ?_ fun _ _ => False.elim
      intro seen landing foreign
      cases landing with
      | none => exact steady
      | some landing => exact settles seen s steady landing foreign
    case waits =>
      intro h s steady _
      refine (wait h s.actions).mono (fun _ _ => id) ?_ fun _ _ => False.elim
      intro seen landing foreign
      cases landing with
      | none => exact lately
      | some landing => exact settles seen s steady landing foreign
    case fails => exact fun h s e steady _ failed => steady.2.2 e failed
    case ends => exact fun _ _ _ _ _ _ => trivial
  exact loop_keeps (rule _ id) _ [] ⟨owned, List.forall_mem_nil _, by simp⟩

theorem run_plain {carrier : Carrier A ρ} {asks : Request → Prop} {bad : Failure → Prop}
    (staged : ∀ e, bad (.stage e))
    (start : ∀ h a, (carrier.start a).Keeps (fun _ => asks) (fun _ _ => True) (fun _ => bad) h)
    (look : ∀ h underWay,
      (carrier.answered underWay).Keeps (fun _ => asks) (fun _ _ => True) (fun _ => bad) h)
    (wait : ∀ h underWay,
      (carrier.await underWay).Keeps (fun _ => asks) (fun _ _ => True) (fun _ => bad) h)
    (g : Group) (jobs : List (Job A)) (seen : List Event) :
    (g.run carrier jobs).Keeps (fun _ => asks) (fun _ _ => True) (fun _ => bad) seen := by
  have rule (late : StageError) : Rule carrier (max g.concurrency 1) late (fun _ => asks)
      (fun _ _ => True) (fun _ => bad) (fun _ _ => True) := by
    have looked (h : List Event) (s : State A ρ) {idle : List Event → Prop} (still : idle h)
        (landing : Option (Fin s.actions.length × Except StageError ρ)) :
        Looked carrier (fun _ => asks) (fun _ => bad) (fun _ _ => True) s idle h landing := by
      cases landing with
      | none => exact still
      | some landing =>
        show (issue carrier (s.settle landing).2).Keeps _ _ _ _
        cases (s.settle landing).2 with
        | none => trivial
        | some a => exact start h a
    constructor
    case starts => exact fun h _ job _ _ _ => start h job.first
    case looks =>
      exact fun h s _ => (look h s.actions).mono (fun _ _ => id)
        (fun seen landing _ => looked seen s trivial landing) fun _ _ => id
    case waits =>
      exact fun h s _ _ => (wait h s.actions).mono (fun _ _ => id)
        (fun seen landing _ => looked seen s (staged late) landing) fun _ _ => id
    case fails => exact fun _ _ e _ _ _ => staged e
    case ends => exact fun _ _ _ _ _ _ => trivial
  exact loop_keeps (rule _) _ seen trivial

theorem run_only {carrier : Carrier A ρ} {asks : Request → Prop}
    (start : ∀ a, (carrier.start a).Only asks)
    (look : ∀ underWay, (carrier.answered underWay).Only asks)
    (wait : ∀ underWay, (carrier.await underWay).Only asks) (g : Group) (jobs : List (Job A)) :
    (g.run carrier jobs).Only asks :=
  run_plain (fun _ => trivial) (fun h a => Only.anywhere (start a) h)
    (fun h underWay => Only.anywhere (look underWay) h)
    (fun h underWay => Only.anywhere (wait underWay) h) g jobs []

end Group

namespace Carrier

open ValidatorDays.Group

theorem traced_writes : Traced writes Event.startsWrite fun e => e.landsWrite.map (·, ()) := by
  have told (h : List Event) {e : Event} (starts : e.startsWrite = []) :
      (h ++ [e]).flatMap Event.startsWrite = h.flatMap Event.startsWrite := by
    simp [starts]
  constructor
  case start =>
    intro h w
    simp only [writes, keeps_bind, keeps_ofOutcome]
    cases w.bound with
    | error fault => exact rfl
    | ok _ => exact ⟨trivial, fun _ => by simp [Keeps, Event.startsWrite, Event.landsWrite]⟩
  case look =>
    intro h underWay
    cases underWay with
    | nil => exact ⟨rfl, rfl⟩
    | cons w others =>
      refine ⟨trivial, fun answer => ?_⟩
      obtain _ | ⟨i, e | ⟨⟩⟩ := answer <;> exact ⟨told h rfl, by simp [Event.landsWrite]⟩
  case wait =>
    intro h underWay
    refine ⟨trivial, fun answer => ?_⟩
    obtain _ | ⟨i, e | ⟨⟩⟩ := answer <;> exact ⟨told h rfl, by simp [Event.landsWrite]⟩

theorem traced_fetches : Traced fetches Event.startsFetch Event.fetched := by
  have told (h : List Event) {e : Event} (starts : e.startsFetch = []) :
      (h ++ [e]).flatMap Event.startsFetch = h.flatMap Event.startsFetch := by
    simp [starts]
  constructor
  case start =>
    intro h range
    exact ⟨trivial, fun _ => by simp [Keeps, Event.startsFetch, Event.fetched]⟩
  case look =>
    intro h underWay
    cases underWay with
    | nil => exact ⟨rfl, rfl⟩
    | cons range others =>
      refine ⟨trivial, fun answer => ?_⟩
      obtain _ | ⟨i, e | found⟩ := answer <;> exact ⟨told h rfl, by simp [Event.fetched]⟩
  case wait =>
    intro h underWay
    refine ⟨trivial, fun answer => ?_⟩
    obtain _ | ⟨i, e | found⟩ := answer <;> exact ⟨told h rfl, by simp [Event.fetched]⟩

theorem foreign_none {n : Nat} {ρ : Type} :
    Foreign (none : Option (Fin n × Except StageError ρ)) := by
  intro i e same
  cases same

theorem foreign_landed {n : Nat} {ε ρ : Type} {f : ε → StageError}
    (others : ∀ e, ¬ (Failure.stage (f e)).IsOwn) (answer : Option (Landing n ε ρ)) :
    Foreign (landed f answer) := by
  intro i e same
  obtain _ | ⟨j, e' | a⟩ := answer
  · cases same
  · cases same
    exact others e'
  · cases same

theorem run_writes_foreign (g : Group) {jobs : List (Job Write)}
    (bound : ∀ job ∈ jobs, ∀ w ∈ job.actions, w.bound = .ok ()) : (g.run writes jobs).Keeps
      (fun _ _ => True) (fun _ _ => True) (fun _ cause => ¬ cause.IsOwn) [] := by
  refine run_foreign ?start ?look ?wait g bound
  case start =>
    intro h w ready
    simp only [writes, keeps_bind, keeps_ofOutcome, ready]
    exact ⟨trivial, fun _ => trivial⟩
  case look =>
    intro h underWay
    cases underWay with
    | nil => exact foreign_none
    | cons w others => exact ⟨trivial, foreign_landed fun _ => id⟩
  case wait => exact fun h underWay => ⟨trivial, foreign_landed fun _ => id⟩

theorem run_fetches_foreign (g : Group) (jobs : List (Job EpochRange)) :
    (g.run fetches jobs).Keeps (fun _ _ => True) (fun _ _ => True) (fun _ cause => ¬ cause.IsOwn)
      [] := by
  have any : ∀ job ∈ jobs, ∀ range ∈ job.actions, True := fun _ _ _ _ => trivial
  refine run_foreign ?start ?look ?wait g any
  case start => exact fun h range _ => ⟨trivial, fun _ => trivial⟩
  case look =>
    intro h underWay
    cases underWay with
    | nil => exact foreign_none
    | cons range others => exact ⟨trivial, foreign_landed fun _ => id⟩
  case wait => exact fun h underWay => ⟨trivial, foreign_landed fun _ => id⟩

theorem asks_writes (g : Group) (jobs : List (Job Write)) :
    (g.run writes jobs).Only Request.OfWrites := by
  refine run_only (fun w => .bind (.outcome _) fun _ => .ask trivial fun _ => .done _)
    (fun underWay => ?_) (fun underWay => .ask trivial fun _ => .done _) g jobs
  cases underWay with
  | nil => exact .done _
  | cons w others => exact .ask trivial fun _ => .done _

theorem asks_fetches (g : Group) (jobs : List (Job EpochRange)) :
    (g.run fetches jobs).Only Request.OfFetches := by
  refine run_only (fun range => .ask trivial fun _ => .done _)
    (fun underWay => ?_) (fun underWay => .ask trivial fun _ => .done _) g jobs
  cases underWay with
  | nil => exact .done _
  | cons range others => exact .ask trivial fun _ => .done _

end Carrier
end ValidatorDays
