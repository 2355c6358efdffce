import Mathlib.Data.List.InsertIdx
import ValidatorDays.Proofs.Work.Events
import ValidatorDays.Work.Group
/-! Groups of jobs over all courses. `loop_keeps` is the rule for the loop: an invariant between
what was seen and the state of the group. From it `run_writes` and `run_fetches` say that a group
that comes to an end well leaves nothing unanswered, and that any other names a failed answer. -/
namespace ValidatorDays

open Program

def Job.actions {A : Type} (job : Job A) : List A := job.first :: job.rest

theorem Job.actions_ending {A : Type} (actions : List A) (last : A) :
    (Job.ending actions last).actions = actions ++ [last] := by
  cases actions <;> rfl

namespace Group

variable {A ρ : Type}

theorem run_nothing (g : Group) (carrier : Carrier A ρ) : g.run carrier [] = .done [] := by
  simp [run, loop, State.ready]

theorem run_first (g : Group) (carrier : Carrier A ρ) (job : Job A) (others : List (Job A)) :
    g.run carrier (job :: others) = (carrier.start job.first).bind fun _ =>
      loop carrier (max g.concurrency 1) (.deadlineExceeded g.stage g.deadline)
        ⟨others, [job], [], none⟩ := by
  have ready : (⟨job :: others, [], [], none⟩ : State A ρ).ready (max g.concurrency 1) =
      some (job, others) := by
    simp [State.ready]
  rw [run, loop]
  split
  · rename_i starts
    rw [ready] at starts
    cases starts
    rfl
  · rename_i starts
    rw [ready] at starts
    cases starts

theorem loop_done (carrier : Carrier A ρ) (places : Nat) (late : StageError) (results : List ρ) :
    loop carrier places late ⟨[], [], results, none⟩ = .done results.reverse := by
  rw [loop]
  rfl

theorem loop_waits (carrier : Carrier A ρ) (places : Nat) (late : StageError)
    {s : State A ρ} (unready : s.ready places = none) (busy : s.underWay ≠ []) :
    loop carrier places late s = (carrier.await s.actions).bind fun
      | .none => .fail (.stage late)
      | some landing => (issue carrier (s.settle landing).2).bind fun _ =>
        loop carrier places late (s.settle landing).1 := by
  rw [loop]
  split
  · rename_i starts
    rw [unready] at starts
    cases starts
  · split
    · exact absurd ‹_› busy
    · exact absurd ‹_› busy
    · rfl

def Looked (carrier : Carrier A ρ) (may : List Event → Request → Prop)
    (bad : List Event → Failure → Prop) (inv : List Event → State A ρ → Prop) (s : State A ρ)
    (idle : List Event → Prop) (seen : List Event) :
    Option (Fin s.actions.length × Except StageError ρ) → Prop
  | none => idle seen
  | some landing => (issue carrier (s.settle landing).2).Keeps may
      (fun h _ => inv h (s.settle landing).1) bad seen

/-- What keeps an invariant of the loop, and what it gives at the end. -/
structure Rule (carrier : Carrier A ρ) (places : Nat) (late : StageError)
    (may : List Event → Request → Prop) (good : List Event → List ρ → Prop)
    (bad : List Event → Failure → Prop) (inv : List Event → State A ρ → Prop) : Prop where
  starts : ∀ h s job rest, inv h s → s.ready places = some (job, rest) →
    (carrier.start job.first).Keeps may (fun h _ => inv h (s.start job rest)) bad h
  looks : ∀ h s, inv h s →
    (carrier.answered s.actions).Keeps may (Looked carrier may bad inv s fun h => inv h s) bad h
  waits : ∀ h s, inv h s → s.underWay ≠ [] → (carrier.await s.actions).Keeps may
    (Looked carrier may bad inv s fun h => bad h (.stage late)) bad h
  fails : ∀ h s e, inv h s → s.underWay = [] → s.failed = some e → bad h (.stage e)
  ends : ∀ h s, inv h s → s.ready places = none → s.underWay = [] → s.failed = none →
    good h s.results.reverse

theorem loop_keeps {carrier : Carrier A ρ} {places : Nat} {late : StageError}
    {may : List Event → Request → Prop} {good : List Event → List ρ → Prop}
    {bad : List Event → Failure → Prop} {inv : List Event → State A ρ → Prop}
    (rule : Rule carrier places late may good bad inv) (s : State A ρ) (seen : List Event)
    (holds : inv seen s) : (loop carrier places late s).Keeps may good bad seen := by
  fun_induction loop carrier places late s generalizing seen with
  | case1 s job rest starts onStart onLanding =>
    refine (rule.looks seen s holds).bind fun h landing looked => ?_
    cases landing with
    | none => exact (rule.starts h s job rest looked starts).bind fun h _ => onStart h
    | some landing => exact looked.bind fun h _ => onLanding landing h
  | case2 s _ e failed idle => exact rule.fails seen s e holds idle failed
  | case3 s starts unfailed idle => exact rule.ends seen s holds starts idle unfailed
  | case4 s _ job others busy onLanding =>
    refine (rule.waits seen s holds (by simp [busy])).bind fun h landing looked => ?_
    cases landing with
    | none => exact looked
    | some landing => exact looked.bind fun h _ => onLanding landing h

namespace State

theorem settle_ok (s : State A ρ) (i : Fin s.actions.length) (a : ρ) :
    (s.settle (i, .ok a)).1.failed = s.failed ∧ (s.settle (i, .ok a)).1.actions.Perm
      (s.actions.eraseIdx i ++ (s.settle (i, .ok a)).2.toList) := by
  have inside : (s.owner i).val < s.underWay.length := (s.owner i).isLt
  have same : (s.owner i).val = i.val := rfl
  simp only [settle, land]
  split
  · rename_i ended
    refine ⟨rfl, ?_⟩
    simp only [actions, same, List.eraseIdx_map, Option.toList_none, List.append_nil]
    exact .refl _
  · rename_i next rest more
    refine ⟨rfl, ?_⟩
    have moved := (List.set_perm_cons_eraseIdx inside (⟨next, rest⟩ : Job A)).map Job.first
    simp only [actions, same, List.eraseIdx_map, Option.toList_some] at *
    exact moved.trans (List.perm_append_singleton ..).symm

theorem settle_owned {own : A → Prop} (s : State A ρ)
    (landing : Fin s.actions.length × Except StageError ρ)
    (owned : ∀ job ∈ s.underWay, ∀ a ∈ job.actions, own a) :
    (∀ job ∈ (s.settle landing).1.underWay, ∀ a ∈ job.actions, own a) ∧
      ∀ a ∈ (s.settle landing).2, own a := by
  obtain ⟨i, answer⟩ := landing
  have erased : ∀ job ∈ s.underWay.eraseIdx (s.owner i), ∀ a ∈ job.actions, own a :=
    fun job member => owned job (List.mem_of_mem_eraseIdx member)
  cases answer with
  | error e => exact ⟨erased, by simp [settle, land]⟩
  | ok a =>
    simp only [settle, land]
    split
    · exact ⟨erased, by simp⟩
    · rename_i next rest more
      have all := owned s.underWay[s.owner i] (List.getElem_mem _)
      simp only [Job.actions, more, List.mem_cons, forall_eq_or_imp] at all
      refine ⟨?_, by simpa using all.2.1⟩
      intro job member
      rcases List.mem_or_eq_of_mem_set member with member | rfl
      · exact owned job member
      · simpa [Job.actions] using all.2

theorem settle_waiting (s : State A ρ) (landing : Fin s.actions.length × Except StageError ρ) :
    (s.settle landing).1.waiting = s.waiting := by
  obtain ⟨i, answer⟩ := landing
  cases answer with
  | error e => rfl
  | ok a =>
    simp only [settle, land]
    split <;> rfl

theorem ready_failed {places : Nat} {s : State A ρ} {job : Job A} {rest : List (Job A)}
    (starts : s.ready places = some (job, rest)) : s.failed = none := by
  unfold ready at starts
  split at starts
  · assumption
  · cases starts

end State

/-- What has to be true of an answer of a carrier: a good one takes an action from those that are
tracked, a bad one is on record. -/
def Accounted (track : List Event → List A → Prop) (before : List Event) (underWay : List A)
    (idle : List Event → Prop) (seen : List Event) :
    Option (Fin underWay.length × Except StageError ρ) → Prop
  | none => idle seen
  | some (i, .ok _) => track before underWay → track seen (underWay.eraseIdx i)
  | some (_, .error _) => Marred seen

/-- A carrier that tells what it does: `track` says which actions are under way. -/
structure Tracked (carrier : Carrier A ρ) (asks : Request → Prop) (own : A → Prop)
    (track : List Event → List A → Prop) : Prop where
  reorder : ∀ h underWay others, track h underWay → underWay.Perm others → track h others
  start : ∀ h a, own a → (carrier.start a).Keeps (fun _ => asks)
    (fun seen _ => ∀ underWay, track h underWay → track seen (underWay ++ [a]))
    (fun _ cause => ∃ fault, cause = .fault fault) h
  look : ∀ h underWay, (∀ a ∈ underWay, own a) → (carrier.answered underWay).Keeps (fun _ => asks)
    (Accounted track h underWay fun seen => track h underWay → track seen underWay)
    (fun _ _ => False) h
  wait : ∀ h underWay, (∀ a ∈ underWay, own a) → (carrier.await underWay).Keeps (fun _ => asks)
    (Accounted track h underWay Marred) (fun _ _ => False) h

/-- The actions are those the carrier may issue, and those under way are tracked until one
has failed. -/
structure Steady (own : A → Prop) (track : List Event → List A → Prop) (seen : List Event)
    (s : State A ρ) : Prop where
  waiting : ∀ job ∈ s.waiting, ∀ a ∈ job.actions, own a
  underWay : ∀ job ∈ s.underWay, ∀ a ∈ job.actions, own a
  tracked : s.failed = none → track seen s.actions
  marred : ∀ e, s.failed = some e → Marred seen

theorem Steady.owned {own : A → Prop} {track : List Event → List A → Prop} {seen : List Event}
    {s : State A ρ} (steady : Steady own track seen s) : ∀ a ∈ s.actions, own a := by
  intro a member
  obtain ⟨job, inside, rfl⟩ := List.mem_map.mp member
  exact steady.underWay job inside _ List.mem_cons_self

section Tracked

variable {carrier : Carrier A ρ} {asks : Request → Prop} {own : A → Prop}
  {track : List Event → List A → Prop}

theorem Tracked.settles (carries : Tracked carrier asks own track) {before seen : List Event}
    {s : State A ρ} (steady : Steady own track before s) (grown : before <+: seen)
    (landing : Fin s.actions.length × Except StageError ρ) {idle otherwise : List Event → Prop}
    (accounted : Accounted track before s.actions idle seen (some landing)) :
    Looked carrier (fun _ => asks) Blamed (fun h s => Steady own track h s) s otherwise seen
      (some landing) := by
  have owned := s.settle_owned landing steady.underWay
  have waiting := (s.settle_waiting landing) ▸ steady.waiting
  obtain ⟨i, answer⟩ := landing
  cases answer with
  | error e =>
    refine ⟨waiting, owned.1, ?_, fun _ _ => accounted⟩
    intro unfailed
    simp [State.settle, State.land] at unfailed
  | ok a =>
    obtain ⟨failed, actions⟩ := s.settle_ok i a
    have marred : ∀ h, seen <+: h → ∀ e, (s.settle (i, .ok a)).1.failed = some e → Marred h := by
      rintro h longer e isFailed
      obtain ⟨more, rfl⟩ := grown.trans longer
      exact (steady.marred e (failed ▸ isFailed)).append more
    have tracked : (s.settle (i, .ok a)).1.failed = none → track seen (s.actions.eraseIdx i) :=
      fun unfailed => accounted (steady.tracked (failed ▸ unfailed))
    simp only [Looked]
    cases next : (s.settle (i, .ok a)).2 with
    | none =>
      simp only [next, Option.toList_none, List.append_nil] at actions
      exact ⟨waiting, owned.1,
        fun unfailed => carries.reorder _ _ _ (tracked unfailed) actions.symm,
        marred seen List.prefix_rfl⟩
    | some b =>
      simp only [next, Option.toList_some] at actions
      refine (carries.start seen b (owned.2 b next)).grown.mono (fun _ _ => id) ?_ ?_
      · rintro h _ ⟨longer, started⟩
        exact ⟨waiting, owned.1, fun unfailed =>
          carries.reorder _ _ _ (started _ (tracked unfailed)) actions.symm, marred h longer⟩
      · rintro h cause ⟨-, fault, rfl⟩
        exact .fault h fault

theorem Tracked.rule (carries : Tracked carrier asks own track) (places : Nat)
    (late : StageError) : Rule carrier places late (fun _ => asks) (fun h _ => track h []) Blamed
      (fun h s => Steady own track h s) := by
  constructor
  case starts =>
    intro h s job rest steady starts
    have waiting := State.ready_waiting starts
    have unfailed := State.ready_failed starts
    have all := steady.waiting
    simp only [waiting, List.mem_cons, forall_eq_or_imp] at all
    refine (carries.start h job.first (all.1 _ List.mem_cons_self)).mono (fun _ _ => id) ?_ ?_
    · intro seen _ started
      refine ⟨all.2, ?_, fun _ => ?_, ?_⟩
      · intro other member
        rcases List.mem_append.mp member with member | member
        · exact steady.underWay other member
        · cases List.mem_singleton.mp member
          exact all.1
      · simpa [State.start, State.actions] using started _ (steady.tracked unfailed)
      · intro e failed
        simp [State.start, unfailed] at failed
    · rintro seen cause ⟨fault, rfl⟩
      exact .fault seen fault
  case looks =>
    intro h s steady
    refine (carries.look h s.actions steady.owned).grown.mono (fun _ _ => id) ?_ fun _ _ => ?_
    · rintro seen landing ⟨grown, accounted⟩
      cases landing with
      | some landing => exact carries.settles steady grown landing accounted
      | none =>
        refine ⟨steady.waiting, steady.underWay,
          fun unfailed => accounted (steady.tracked unfailed), ?_⟩
        obtain ⟨more, rfl⟩ := grown
        exact fun e failed => (steady.marred e failed).append more
    · exact fun never => never.2.elim
  case waits =>
    intro h s steady _
    refine (carries.wait h s.actions steady.owned).grown.mono (fun _ _ => id) ?_ fun _ _ => ?_
    · rintro seen landing ⟨grown, accounted⟩
      cases landing with
      | some landing => exact carries.settles steady grown landing accounted
      | none => exact .stage late accounted
    · exact fun never => never.2.elim
  case fails =>
    intro h s e steady _ failed
    exact .stage e (steady.marred e failed)
  case ends =>
    intro h s steady _ idle unfailed
    simpa [State.actions, idle] using steady.tracked unfailed

theorem Tracked.run (carries : Tracked carrier asks own track) (g : Group) (jobs : List (Job A))
    (owned : ∀ job ∈ jobs, ∀ a ∈ job.actions, own a) {seen : List Event} (tracked : track seen []) :
    (g.run carrier jobs).Keeps (fun _ => asks) (fun h _ => track h []) Blamed seen :=
  loop_keeps (carries.rule _ _) _ seen ⟨owned, by simp, fun _ => tracked, by simp⟩

end Tracked

end Group

namespace Carrier

open ValidatorDays.Group

theorem tracked_writes (own : Write → Prop) : Tracked writes (Request.Within own) own
    (fun seen underWay => Pending seen underWay []) := by
  constructor
  case reorder => exact fun h underWay others pending same => pending.reorder same (.refl _)
  case start =>
    intro h w owned
    simp only [writes, keeps_bind, keeps_ofOutcome]
    cases w.bound with
    | error fault => exact ⟨fault, rfl⟩
    | ok _ =>
      refine ⟨by simpa [Request.Within, Request.writes] using owned, fun _ underWay pending => ?_⟩
      have started : Pending [⟨.startWrite w, ()⟩] [w] [] :=
        ⟨by simp [Event.succeeded], .refl _, .refl _, rfl⟩
      exact pending.append started
  case look =>
    intro h underWay owned
    cases underWay with
    | nil => exact id
    | cons w others =>
      refine ⟨owned, fun answer => ?_⟩
      obtain _ | ⟨i, e | ⟨⟩⟩ := answer
      · exact fun pending => pending.still (.single trivial rfl rfl rfl)
      · exact marred_last h id
      · exact fun pending => pending.lands_write i trivial rfl rfl rfl rfl rfl
  case wait =>
    intro h underWay owned
    refine ⟨owned, fun answer => ?_⟩
    obtain _ | ⟨i, e | ⟨⟩⟩ := answer
    · exact marred_last h id
    · exact marred_last h id
    · exact fun pending => pending.lands_write i trivial rfl rfl rfl rfl rfl

theorem tracked_fetches (own : Write → Prop) : Tracked fetches (Request.Within own)
    (fun _ => True) (fun seen underWay => Pending seen [] underWay) := by
  have silent {r : Request} (noWrites : r.writes = []) : r.Within own := by
    simp [Request.Within, noWrites]
  constructor
  case reorder => exact fun h underWay others pending same => pending.reorder (.refl _) same
  case start =>
    intro h range _
    refine ⟨silent rfl, fun _ underWay pending => ?_⟩
    have started : Pending [⟨.startFetch range, ()⟩] [] [range] :=
      ⟨by simp [Event.succeeded], .refl _, .refl _, rfl⟩
    exact pending.append started
  case look =>
    intro h underWay _
    cases underWay with
    | nil => exact id
    | cons range others =>
      refine ⟨silent rfl, fun answer => ?_⟩
      obtain _ | ⟨i, e | found⟩ := answer
      · exact fun pending => pending.still (.single trivial rfl rfl rfl)
      · exact marred_last h id
      · exact fun pending => pending.lands_fetch i trivial rfl rfl rfl rfl rfl
  case wait =>
    intro h underWay _
    refine ⟨silent rfl, fun answer => ?_⟩
    obtain _ | ⟨i, e | found⟩ := answer
    · exact marred_last h id
    · exact marred_last h id
    · exact fun pending => pending.lands_fetch i trivial rfl rfl rfl rfl rfl

end Carrier
end ValidatorDays
