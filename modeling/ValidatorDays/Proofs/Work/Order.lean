import ValidatorDays.Proofs.Work.Issued
/-! In which order a group issues statements. Where every job is one statement they are issued as
they were planned, up to the first that is refused, and the first refusal is what the group fails
by. Where a job has more, none of them is issued before those ahead of it in the job have landed. -/
namespace ValidatorDays

open Program

theorem split_after {α : Type} {early late before after : List α} {e : α}
    (split : early ++ late = before ++ e :: after) (notEarly : e ∉ early) :
    ∃ ahead, before = early ++ ahead ∧ late = ahead ++ e :: after := by
  rcases List.append_eq_append_iff.mp split with later | ⟨_ | ⟨first, more⟩, whole, same⟩
  · exact later
  · exact ⟨[], by simpa using whole.symm, same.symm⟩
  · cases same
    exact absurd (by simp [whole]) notEarly

theorem split_between {α : Type} {early between late before after : List α} {e : α}
    (split : early ++ (between ++ late) = before ++ e :: after) (notEarly : e ∉ early)
    (notLate : e ∉ late) :
    ∃ ahead rest, between = ahead ++ e :: rest ∧ before = early ++ ahead := by
  obtain ⟨ahead, rfl, onward⟩ := split_after split notEarly
  rcases List.append_eq_append_iff.mp onward with ⟨more, -, same⟩ | ⟨_ | ⟨first, more⟩, whole, same⟩
  · exact absurd (by simp [same]) notLate
  · exact absurd (show e ∈ [] ++ late from same ▸ List.mem_cons_self) notLate
  · cases same
    exact ⟨ahead, more, whole, rfl⟩

namespace Group

/-- What was seen since, as far as statements are issued without waiting. -/
structure Since (before seen : List Event) (started landed : List Write)
    (refused : List (Write × DatabaseError)) : Prop where
  started : seen.flatMap Event.startsWrite = before.flatMap Event.startsWrite ++ started
  landed : seen.flatMap Event.landsWrite = before.flatMap Event.landsWrite ++ landed
  refused : seen.flatMap Event.refusesWrite = before.flatMap Event.refusesWrite ++ refused

theorem Since.nothing (seen : List Event) : Since seen seen [] [] [] := by
  constructor <;> rw [List.append_nil]

theorem Since.event (before : List Event) (e : Event) :
    Since before (before ++ [e]) e.startsWrite e.landsWrite e.refusesWrite := by
  constructor <;> rw [List.flatMap_append, List.flatMap_singleton]

def Heard (before : List Event) (underWay : List Write) (idle : List Event → Prop)
    (seen : List Event) : Option (Fin underWay.length × Except StageError Unit) → Prop
  | none => idle seen
  | some (i, .ok ()) => Since before seen [] [underWay.get i] []
  | some (i, .error e) => ∃ cause, e = .notPersisted cause ∧
      Since before seen [] [] [(underWay.get i, cause)]

section Writes

variable {may : List Event → Request → Prop} {h : List Event}

theorem start_since {w : Write} (allowed : may h (.startWrite w)) :
    (Carrier.writes.start w).Keeps may (fun seen _ => Since h seen [w] [] [])
      (fun _ _ => w.bound ≠ .ok ()) h := by
  simp only [Carrier.writes, keeps_bind, keeps_ofOutcome]
  cases w.bound with
  | error fault =>
    intro same
    cases same
  | ok _ => exact ⟨allowed, fun _ => Since.event h ⟨.startWrite w, ()⟩⟩

theorem look_heard {underWay : List Write} (allowed : may h (.pollWrites underWay)) :
    (Carrier.writes.answered underWay).Keeps may
      (Heard h underWay fun seen => Since h seen [] [] []) (fun _ _ => False) h := by
  cases underWay with
  | nil => exact Since.nothing h
  | cons w others =>
    refine ⟨allowed, fun answer => ?_⟩
    obtain _ | ⟨i, cause | ⟨⟩⟩ := answer
    · exact Since.event h ⟨.pollWrites (w :: others), none⟩
    · exact ⟨cause, rfl, Since.event h ⟨.pollWrites (w :: others), some (i, .error cause)⟩⟩
    · exact Since.event h ⟨.pollWrites (w :: others), some (i, .ok ())⟩

theorem wait_heard {underWay : List Write} (allowed : may h (.awaitWrites underWay)) :
    (Carrier.writes.await underWay).Keeps may (Heard h underWay fun seen =>
      (∃ e ∈ seen, e.IsLate) ∧ Since h seen [] [] []) (fun _ _ => False) h := by
  refine ⟨allowed, fun answer => ?_⟩
  obtain _ | ⟨i, cause | ⟨⟩⟩ := answer
  · exact ⟨⟨⟨.awaitWrites underWay, none⟩, by simp, trivial⟩,
      Since.event h ⟨.awaitWrites underWay, none⟩⟩
  · exact ⟨cause, rfl, Since.event h ⟨.awaitWrites underWay, some (i, .error cause)⟩⟩
  · exact Since.event h ⟨.awaitWrites underWay, some (i, .ok ())⟩

end Writes

/-- How far a group has come with jobs of one statement each. With one place there is an order
among the answers as well. -/
structure Handing (places : Nat) (planned started landed : List Write)
    (refused : List (Write × DatabaseError)) (s : State Write Unit) : Prop where
  single : ∀ job ∈ s.waiting ++ s.underWay, job.rest = []
  inOrder : started ++ s.waiting.map Job.first = planned
  answered : started.Perm (landed ++ (refused.map Prod.fst ++ s.actions))
  failed : s.failed = refused.head?.map fun r => .notPersisted r.2
  alone : places = 1 → started = landed ++ (refused.map Prod.fst ++ s.actions) ∧
    (refused.map Prod.fst ++ s.actions).length ≤ 1

namespace Handing

variable {places : Nat} {planned started landed : List Write}
  {refused : List (Write × DatabaseError)} {s : State Write Unit}

theorem last (handing : Handing places planned started landed refused s)
    (i : Fin s.actions.length) : (s.underWay[s.owner i]).rest = [] :=
  handing.single _ (List.mem_append_right _ (List.getElem_mem _))

theorem unrefused (handing : Handing places planned started landed refused s)
    (unfailed : s.failed = none) : refused = [] := by
  have noneRefused := handing.failed.symm.trans unfailed
  rwa [Option.map_eq_none_iff, List.head?_eq_none_iff] at noneRefused

theorem start (handing : Handing places planned started landed refused s) {job : Job Write}
    {rest : List (Job Write)} (begins : s.ready places = some (job, rest)) :
    Handing places planned (started ++ [job.first]) landed refused (s.start job rest) where
  single := by
    have same := State.ready_waiting begins
    have single := handing.single
    rw [same] at single
    intro other member
    apply single other
    simp only [State.start, List.mem_append, List.mem_cons, List.not_mem_nil, or_false] at member ⊢
    tauto
  inOrder := by
    have planned := handing.inOrder
    rw [State.ready_waiting begins, List.map_cons, List.append_cons] at planned
    exact planned
  answered := by
    have more := handing.answered.append_right [job.first]
    simpa only [State.start, State.actions, List.map_append, List.map_singleton,
      List.append_assoc] using more
  failed := handing.failed
  alone := by
    intro one
    obtain ⟨inTurn, atMostOne⟩ := handing.alone one
    have room : s.underWay.length < places := by
      unfold State.ready at begins
      split at begins
      · split at begins
        · assumption
        · cases begins
      · cases begins
    have idle : s.underWay = [] := List.eq_nil_of_length_eq_zero (by omega)
    have unrefused := handing.unrefused (State.ready_failed begins)
    subst unrefused
    simp [State.start, State.actions, idle, inTurn]

theorem only (handing : Handing places planned started landed refused s) (one : places = 1)
    (i : Fin s.actions.length) :
    refused = [] ∧ s.actions.eraseIdx i = [] ∧ started = landed ++ [s.actions.get i] := by
  obtain ⟨inTurn, atMostOne⟩ := handing.alone one
  have place := i.isLt
  rw [List.length_append, List.length_map] at atMostOne
  have unrefused : refused = [] := List.eq_nil_of_length_eq_zero (by omega)
  have taken := List.getElem_cons_eraseIdx_perm place
  have nothing : s.actions.eraseIdx i = [] := by
    apply List.eq_nil_of_length_eq_zero
    rw [List.length_eraseIdx_of_lt place]
    omega
  rw [nothing] at taken
  have all : s.actions = [s.actions.get i] := List.perm_singleton.mp taken.symm
  refine ⟨unrefused, nothing, inTurn.trans ?_⟩
  rw [unrefused]
  exact congrArg (landed ++ ·) all

theorem settle (handing : Handing places planned started landed refused s)
    (i : Fin s.actions.length) : (∀ job ∈ s.waiting ++ s.underWay.eraseIdx (s.owner i),
      job.rest = []) ∧ (s.underWay.eraseIdx (s.owner i)).map Job.first = s.actions.eraseIdx i ∧
      s.actions.Perm (s.actions.get i :: s.actions.eraseIdx i) := by
  refine ⟨fun job member => handing.single job ?_, ?_, ?_⟩
  · exact ((List.Sublist.refl _).append (List.eraseIdx_sublist _ _)).subset member
  · exact (List.eraseIdx_map ..).symm
  · exact (List.getElem_cons_eraseIdx_perm i.isLt).symm

theorem land (handing : Handing places planned started landed refused s)
    (i : Fin s.actions.length) : (s.settle (i, .ok ())).2 = none ∧
      Handing places planned started (landed ++ [s.actions.get i]) refused
        (s.settle (i, .ok ())).1 := by
  obtain ⟨single, left, taken⟩ := handing.settle i
  rw [State.settle_last () (handing.last i)]
  refine ⟨rfl, single, handing.inOrder, ?_, handing.failed, fun one => ?_⟩
  · show started.Perm (_ ++ (_ ++ (s.underWay.eraseIdx (s.owner i)).map Job.first))
    rw [left, List.append_assoc]
    refine handing.answered.trans (.append_left landed ?_)
    exact (taken.append_left _).trans List.perm_middle
  · obtain ⟨unrefused, nothing, inTurn⟩ := handing.only one i
    show started = _ ++ (_ ++ (s.underWay.eraseIdx (s.owner i)).map Job.first) ∧
      (_ ++ (s.underWay.eraseIdx (s.owner i)).map Job.first).length ≤ 1
    rw [left, nothing, unrefused]
    exact ⟨inTurn.trans (List.append_nil _).symm, Nat.zero_le _⟩

theorem refuse (handing : Handing places planned started landed refused s)
    (i : Fin s.actions.length) (cause : DatabaseError) :
    Handing places planned started landed (refused ++ [(s.actions.get i, cause)])
      (s.settle (i, .error (.notPersisted cause))).1 := by
  obtain ⟨single, left, taken⟩ := handing.settle i
  refine ⟨single, handing.inOrder, ?_, ?_, fun one => ?_⟩
  · show started.Perm (_ ++ (_ ++ (s.underWay.eraseIdx (s.owner i)).map Job.first))
    rw [left, List.map_append, List.append_assoc]
    exact handing.answered.trans ((taken.append_left _).append_left landed)
  · show s.failed.or _ = _
    rw [handing.failed]
    cases refused <;> rfl
  · obtain ⟨unrefused, nothing, inTurn⟩ := handing.only one i
    show started = _ ++ (_ ++ (s.underWay.eraseIdx (s.owner i)).map Job.first) ∧
      (_ ++ (s.underWay.eraseIdx (s.owner i)).map Job.first).length ≤ 1
    rw [left, nothing, unrefused]
    exact ⟨inTurn, Nat.le_refl 1⟩

end Handing

def Hands (places : Nat) (planned : List Write) (seen : List Event) (s : State Write Unit) : Prop :=
  Handing places planned (seen.flatMap Event.startsWrite) (seen.flatMap Event.landsWrite)
    (seen.flatMap Event.refusesWrite) s

def StartsUnrefused (seen : List Event) (r : Request) : Prop :=
  ∀ w, r = .startWrite w → seen.flatMap Event.refusesWrite = []

def EndsWell (places : Nat) (planned : List Write) (seen : List Event) : Prop :=
  ∃ s, Hands places planned seen s ∧ s.waiting = [] ∧ s.underWay = [] ∧ s.failed = none

/-- Either the deadline came first, or all that was under way was waited for. -/
def EndsBadly (places : Nat) (late : StageError) (planned : List Write) (seen : List Event)
    (cause : Failure) : Prop :=
  ∃ s, Hands places planned seen s ∧
    (((∃ e ∈ seen, e.IsLate) ∧ s.underWay ≠ [] ∧ cause = .stage late) ∨
      s.underWay = [] ∧ ∃ e, s.failed = some e ∧ cause = .stage e)

section Hands

variable {places : Nat} {planned : List Write}

theorem Hands.since {before seen : List Event} {s : State Write Unit}
    (hands : Hands places planned before s) (same : Since before seen [] [] []) :
    Hands places planned seen s := by
  obtain ⟨started, landed, refused⟩ := same
  simp only [List.append_nil] at started landed refused
  rw [Hands, started, landed, refused]
  exact hands

theorem Hands.settles {before seen : List Event} {s : State Write Unit}
    (hands : Hands places planned before s) {late : StageError} {idle otherwise : List Event → Prop}
    (landing : Fin s.actions.length × Except StageError Unit)
    (heard : Heard before s.actions idle seen (some landing)) :
    Looked Carrier.writes StartsUnrefused (EndsBadly places late planned) (Hands places planned) s
      otherwise seen (some landing) := by
  obtain ⟨i, e | ⟨⟩⟩ := landing
  · obtain ⟨cause, rfl, started, landed, refused⟩ := heard
    rw [List.append_nil] at started landed
    show Hands places planned seen _
    rw [Hands, started, landed, refused]
    exact hands.refuse i cause
  · obtain ⟨started, landed, refused⟩ := heard
    rw [List.append_nil] at started refused
    obtain ⟨nothing, still⟩ := hands.land i
    rw [Looked, nothing]
    show Hands places planned seen _
    rw [Hands, started, landed, refused]
    exact still

theorem hands_rule (bound : ∀ w ∈ planned, w.bound = .ok ()) (positive : 0 < places)
    (late : StageError) : Rule Carrier.writes places late StartsUnrefused
      (fun seen _ => EndsWell places planned seen) (EndsBadly places late planned)
      (Hands places planned) := by
  constructor
  case starts =>
    intro h s job rest hands begins
    have unrefused := hands.unrefused (State.ready_failed begins)
    have mine : job.first ∈ planned := by
      rw [← hands.inOrder, State.ready_waiting begins]
      simp
    refine (start_since fun _ _ => unrefused).mono (fun _ _ => id) ?_ ?_
    · rintro seen _ ⟨started, landed, refused⟩
      rw [List.append_nil] at landed refused
      rw [Hands, started, landed, refused]
      exact hands.start begins
    · exact fun _ _ unbound => absurd (bound _ mine) unbound
  case looks =>
    intro h s hands
    refine (look_heard nofun).mono (fun _ _ => id) ?_ fun _ _ => False.elim
    intro seen landing heard
    cases landing with
    | none => exact hands.since heard
    | some landing => exact hands.settles landing heard
  case waits =>
    intro h s hands busy
    refine (wait_heard nofun).mono (fun _ _ => id) ?_ fun _ _ => False.elim
    intro seen landing heard
    cases landing with
    | none => exact ⟨s, hands.since heard.2, .inl ⟨heard.1, busy, rfl⟩⟩
    | some landing => exact hands.settles landing heard
  case fails => exact fun h s e hands idle failed => ⟨s, hands, .inr ⟨idle, e, failed, rfl⟩⟩
  case ends =>
    intro h s hands idle nothing unfailed
    refine ⟨s, hands, ?_, nothing, unfailed⟩
    cases jobs : s.waiting with
    | nil => rfl
    | cons job rest => simp [State.ready, jobs, unfailed, nothing, positive] at idle

end Hands

/-- What becomes of statements that a group hands over, each a job of its own. -/
structure HandsOver {α : Type} (g : Group) (planned : List Write) (trace : List Event)
    (result : Outcome α) : Prop where
  inOrder : trace.flatMap Event.startsWrite <+: planned
  once : (trace.flatMap Event.landsWrite ++
    (trace.flatMap Event.refusesWrite).map Prod.fst).Subperm (trace.flatMap Event.startsWrite)
  stops : ∀ before w answer after, trace = before ++ ⟨.startWrite w, answer⟩ :: after →
    before.flatMap Event.refusesWrite = []
  succeeds : (∃ a, result = .ok a) ↔ (trace.flatMap Event.landsWrite).Perm planned
  fails : (∀ e ∈ trace, ¬ e.IsLate) → ∀ cause, result = .error cause →
    (trace.flatMap Event.startsWrite).Perm (trace.flatMap Event.landsWrite ++
      (trace.flatMap Event.refusesWrite).map Prod.fst) ∧
    ∃ w e others, trace.flatMap Event.refusesWrite = (w, e) :: others ∧
      cause = .stage (.notPersisted e)
  oneByOne : g.concurrency ≤ 1 → (∀ e ∈ trace, ¬ e.IsLate) → ∀ cause, result = .error cause →
    ∃ done w e rest, planned = done ++ w :: rest ∧ trace.flatMap Event.startsWrite = done ++ [w] ∧
      trace.flatMap Event.landsWrite = done ∧ trace.flatMap Event.refusesWrite = [(w, e)] ∧
      cause = .stage (.notPersisted e)

section Ends

variable {places : Nat} {late : StageError} {planned : List Write} {seen : List Event}
  {cause : Failure}

theorem EndsWell.landed (ends : EndsWell places planned seen) :
    seen.flatMap Event.startsWrite = planned ∧ (seen.flatMap Event.landsWrite).Perm planned ∧
      seen.flatMap Event.refusesWrite = [] := by
  obtain ⟨s, hands, waiting, idle, unfailed⟩ := ends
  have unrefused := hands.unrefused unfailed
  have started := hands.inOrder
  have answered := hands.answered
  rw [waiting, List.map_nil, List.append_nil] at started
  rw [State.actions, idle, unrefused, List.map_nil, List.map_nil, List.append_nil, List.append_nil,
    started] at answered
  exact ⟨started, answered.symm, unrefused⟩

theorem EndsBadly.not_landed (ends : EndsBadly places late planned seen cause) :
    ¬ (seen.flatMap Event.landsWrite).Perm planned := by
  intro all
  obtain ⟨s, hands, how⟩ := ends
  have whole := congrArg List.length hands.inOrder
  have parts := hands.answered.length_eq
  have same := all.length_eq
  simp only [List.length_append, List.length_map, State.actions] at whole parts
  rcases how with ⟨-, busy, -⟩ | ⟨-, e, failed, -⟩
  · have positive := List.length_pos_of_ne_nil busy
    omega
  · have first := hands.failed
    rw [failed] at first
    cases refused : seen.flatMap Event.refusesWrite with
    | nil =>
      rw [refused] at first
      cases first
    | cons r others =>
      rw [refused, List.length_cons] at parts
      omega

theorem EndsBadly.within (ends : EndsBadly places late planned seen cause)
    (inTime : ∀ e ∈ seen, ¬ e.IsLate) : ∃ w e others,
      seen.flatMap Event.refusesWrite = (w, e) :: others ∧ cause = .stage (.notPersisted e) ∧
      (seen.flatMap Event.startsWrite).Perm (seen.flatMap Event.landsWrite ++
        (seen.flatMap Event.refusesWrite).map Prod.fst) ∧
      (places = 1 → others = [] ∧
        seen.flatMap Event.startsWrite = seen.flatMap Event.landsWrite ++ [w]) := by
  obtain ⟨s, hands, ⟨⟨e, member, late⟩, -⟩ | ⟨idle, e, failed, rfl⟩⟩ := ends
  · exact absurd late (inTime e member)
  have first := hands.failed
  have answered := hands.answered
  have alone := hands.alone
  rw [State.actions, idle, List.map_nil, List.append_nil] at answered alone
  rw [failed] at first
  cases refused : seen.flatMap Event.refusesWrite with
  | nil =>
    rw [refused] at first
    cases first
  | cons r others =>
    rw [refused] at first answered alone
    cases first
    refine ⟨r.1, r.2, others, rfl, rfl, answered, fun one => ?_⟩
    obtain ⟨inTurn, atMostOne⟩ := alone one
    rw [List.map_cons, List.length_cons, List.length_map] at atMostOne
    have nothing : others = [] := List.eq_nil_of_length_eq_zero (by omega)
    subst nothing
    exact ⟨rfl, inTurn⟩

end Ends

/-- Statements are handed over as they were planned. All of them land if none is refused, and the
first that is refused is what the group fails by. -/
theorem run_hands_over (g : Group) {jobs : List (Job Write)} (single : ∀ job ∈ jobs, job.rest = [])
    (bound : ∀ w ∈ jobs.map Job.first, w.bound = .ok ()) {trace : List Event}
    {result : Outcome (List Unit)} (run : Runs (g.run .writes jobs) trace result) :
    HandsOver g (jobs.map Job.first) trace result := by
  let late : StageError := .deadlineExceeded g.stage g.deadline
  have kept : (g.run .writes jobs).Keeps StartsUnrefused
      (fun seen _ => EndsWell (max g.concurrency 1) (jobs.map Job.first) seen)
      (EndsBadly (max g.concurrency 1) late (jobs.map Job.first)) [] :=
    loop_keeps (hands_rule bound (by omega) late) _ [] ⟨by simpa using single, rfl, .refl _, rfl,
      fun _ => ⟨rfl, Nat.zero_le 1⟩⟩
  have stops : ∀ before w answer after, trace = before ++ ⟨.startWrite w, answer⟩ :: after →
      before.flatMap Event.refusesWrite = [] := by
    rintro before w answer after rfl
    exact kept.asked run w rfl
  have ended := kept.ends run
  rw [List.nil_append] at ended
  cases result with
  | ok all =>
    obtain ⟨started, landed, unrefused⟩ := EndsWell.landed ended
    refine ⟨started ▸ List.prefix_rfl, ?_, stops, ?_, nofun, nofun⟩
    · rw [unrefused, started, List.map_nil, List.append_nil]
      exact landed.subperm
    · exact ⟨fun _ => landed, fun _ => ⟨all, rfl⟩⟩
  | error cause =>
    have ends : EndsBadly (max g.concurrency 1) late (jobs.map Job.first) trace cause := ended
    obtain ⟨s, hands, -⟩ := ended
    refine ⟨⟨_, hands.inOrder⟩, ?_, stops, ?_, ?_, ?_⟩
    · have accounted := hands.answered
      rw [← List.append_assoc] at accounted
      exact (List.sublist_append_left _ _).subperm.trans accounted.symm.subperm
    · exact ⟨nofun, fun all => absurd all ends.not_landed⟩
    · intro inTime _ same
      cases same
      obtain ⟨w, e, others, refused, told, answered, -⟩ := ends.within inTime
      exact ⟨answered, w, e, others, refused, told⟩
    · intro one inTime _ same
      cases same
      obtain ⟨w, e, others, refused, told, -, alone⟩ := ends.within inTime
      obtain ⟨rfl, inTurn⟩ := alone (by omega)
      refine ⟨_, w, e, s.waiting.map Job.first, ?_, inTurn, rfl, refused, told⟩
      rw [List.append_cons, ← inTurn]
      exact hands.inOrder.symm

theorem State.settle_next {A ρ : Type} (s : State A ρ) (i : Fin s.actions.length) (a : ρ) :
    ((s.settle (i, .ok a)).2 = none ∧
      ∀ job ∈ (s.settle (i, .ok a)).1.underWay, job ∈ s.underWay) ∨
    ∃ old ∈ s.underWay, ∃ job, old.actions = s.actions.get i :: job.actions ∧
      (s.settle (i, .ok a)).2 = some job.first ∧
      ∀ other ∈ (s.settle (i, .ok a)).1.underWay, other = job ∨ other ∈ s.underWay := by
  simp only [settle, land]
  split
  · exact .inl ⟨rfl, fun job member => List.mem_of_mem_eraseIdx member⟩
  · rename_i next rest onward
    refine .inr ⟨_, List.getElem_mem (s.owner i).isLt, ⟨next, rest⟩, ?_, rfl, fun other member =>
      (List.mem_or_eq_of_mem_set member).symm⟩
    have first : s.actions.get i = (s.underWay[s.owner i]).first := List.getElem_map ..
    rw [first]
    exact congrArg (_ :: ·) onward

/-- The jobs under way are what is left of the jobs that were given, and what is not left of them
has landed. -/
structure Advanced (jobs : List (Job Write)) (seen : List Event) (s : State Write Unit) :
    Prop where
  waiting : ∀ job ∈ s.waiting, job ∈ jobs
  underWay : ∀ job ∈ s.underWay, ∃ whole ∈ jobs, ∃ done, whole.actions = done ++ job.actions ∧
    ∀ w ∈ done, w ∈ seen.flatMap Event.landsWrite

/-- What is issued next of a job has been behind statements that have landed, all of them. -/
def InTurn (jobs : List (Job Write)) (seen : List Event) (r : Request) : Prop :=
  ∀ w, r = .startWrite w → ∃ whole ∈ jobs, ∃ done rest, whole.actions = done ++ w :: rest ∧
    ∀ v ∈ done, v ∈ seen.flatMap Event.landsWrite

section InTurn

variable {jobs : List (Job Write)}

theorem Advanced.since {before seen : List Event} {s : State Write Unit}
    {started landed : List Write} {refused : List (Write × DatabaseError)}
    (advanced : Advanced jobs before s) (since : Since before seen started landed refused) :
    Advanced jobs seen s where
  waiting := advanced.waiting
  underWay := by
    intro job member
    obtain ⟨whole, given, done, same, all⟩ := advanced.underWay job member
    refine ⟨whole, given, done, same, fun w inside => ?_⟩
    rw [since.landed]
    exact List.mem_append_left _ (all w inside)

theorem Advanced.settles {before seen : List Event} {s : State Write Unit}
    (advanced : Advanced jobs before s) {idle otherwise : List Event → Prop}
    (landing : Fin s.actions.length × Except StageError Unit)
    (heard : Heard before s.actions idle seen (some landing)) :
    Looked Carrier.writes (InTurn jobs) (fun _ _ => True) (Advanced jobs) s otherwise seen
      (some landing) := by
  have waiting : ∀ job ∈ (s.settle landing).1.waiting, job ∈ jobs :=
    s.settle_waiting landing ▸ advanced.waiting
  obtain ⟨i, e | ⟨⟩⟩ := landing
  · obtain ⟨cause, -, since⟩ := heard
    have still := (advanced.since since).underWay
    exact ⟨waiting, fun job member => still job (List.mem_of_mem_eraseIdx member)⟩
  · have still := (advanced.since heard).underWay
    obtain ⟨ends, fewer⟩ | ⟨old, member, job, actions, next, others⟩ := s.settle_next i ()
    · rw [Looked, ends]
      exact ⟨waiting, fun job member => still job (fewer job member)⟩
    · obtain ⟨whole, given, done, same, all⟩ := still old member
      rw [actions, List.append_cons] at same
      have more : ∀ w ∈ done ++ [s.actions.get i], w ∈ seen.flatMap Event.landsWrite := by
        intro w inside
        rcases List.mem_append.mp inside with before | now
        · exact all w before
        · rw [heard.landed]
          exact List.mem_append_right _ now
      have moved : Advanced jobs seen (s.settle (i, .ok ())).1 := by
        refine ⟨waiting, fun other member => ?_⟩
        rcases others other member with rfl | member
        · exact ⟨whole, given, _, same, more⟩
        · exact still other member
      have turn : InTurn jobs seen (.startWrite job.first) := by
        rintro _ ⟨rfl⟩
        exact ⟨whole, given, _, job.rest, same, more⟩
      rw [Looked, next]
      exact (start_since turn).mono (fun _ _ => id) (fun _ _ since => moved.since since)
        fun _ _ _ => trivial

theorem in_turn_rule (places : Nat) (late : StageError) : Rule Carrier.writes places late
    (InTurn jobs) (fun _ _ => True) (fun _ _ => True) (Advanced jobs) := by
  constructor
  case starts =>
    intro h s job rest advanced begins
    have waiting := advanced.waiting
    rw [State.ready_waiting begins] at waiting
    obtain ⟨first, others⟩ := List.forall_mem_cons.mp waiting
    have turn : InTurn jobs h (.startWrite job.first) := by
      rintro _ ⟨rfl⟩
      exact ⟨job, first, [], job.rest, rfl, List.forall_mem_nil _⟩
    refine (start_since turn).mono (fun _ _ => id) (fun seen _ since => ?_) fun _ _ _ => trivial
    refine Advanced.since ⟨others, fun other member => ?_⟩ since
    rcases List.mem_append.mp member with before | now
    · exact advanced.underWay other before
    · cases List.mem_singleton.mp now
      exact ⟨job, first, [], rfl, List.forall_mem_nil _⟩
  case looks =>
    intro h s advanced
    refine (look_heard nofun).mono (fun _ _ => id) ?_ fun _ _ => False.elim
    intro seen landing heard
    cases landing with
    | none => exact advanced.since heard
    | some landing => exact advanced.settles landing heard
  case waits =>
    intro h s advanced _
    refine (wait_heard nofun).mono (fun _ _ => id) ?_ fun _ _ => False.elim
    intro seen landing heard
    cases landing with
    | none => trivial
    | some landing => exact advanced.settles landing heard
  case fails => exact fun _ _ _ _ _ _ => trivial
  case ends => exact fun _ _ _ _ _ _ => trivial

/-- Whatever the world does, a statement is issued only after those ahead of it in its job have
landed. -/
theorem run_in_turn (g : Group) {before after : List Event} {w : Write} {answer : Unit}
    {result : Outcome (List Unit)}
    (run : Runs (g.run .writes jobs) (before ++ ⟨.startWrite w, answer⟩ :: after) result) :
    ∃ whole ∈ jobs, ∃ done rest, whole.actions = done ++ w :: rest ∧
      ∀ v ∈ done, v ∈ before.flatMap Event.landsWrite := by
  have kept : (g.run .writes jobs).Keeps (InTurn jobs) (fun _ _ => True) (fun _ _ => True) [] :=
    loop_keeps (in_turn_rule _ _) _ [] ⟨fun _ => id, List.forall_mem_nil _⟩
  exact kept.asked run w rfl

end InTurn
end Group
end ValidatorDays
