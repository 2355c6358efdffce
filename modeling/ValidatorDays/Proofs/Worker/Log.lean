import Mathlib.Algebra.Ring.Nat
import Mathlib.Data.List.Nodup
import Mathlib.Data.List.Range
import ValidatorDays.Worker.Schedule
/-! What happens while jobs are worked on, and what may happen. In a lawful log the jobs start in
their order, on free places and as long as none has ended badly, and each of them ends when its
time is up. The rest follows: the numbers of the running jobs, the bound on them, and that a
failure lets only the jobs end that run already. -/
namespace ValidatorDays.Schedule

inductive Event (ε : Type) where
  | started (number time : Nat)
  | ended (number time : Nat) (failure : Option ε)
  deriving DecidableEq

/-- All that has happened, latest first. -/
abbrev Log (ε : Type) := List (Event ε)

variable {ε : Type}

def Event.time : Event ε → Nat
  | .started _ time | .ended _ time _ => time

def Event.start? : Event ε → Option Nat
  | .started number _ => some number
  | .ended .. => none

def Event.end? : Event ε → Option Nat
  | .started .. => none
  | .ended number _ _ => some number

def Event.failure? : Event ε → Option ε
  | .started .. => none
  | .ended _ _ failure => failure

namespace Log

def starts (log : Log ε) : List Nat := log.filterMap Event.start?

def ends (log : Log ε) : List Nat := log.filterMap Event.end?

def failures (log : Log ε) : List ε := log.filterMap Event.failure?

def running (log : Log ε) : List Nat := log.starts.filter (· ∉ log.ends)

def StartsAt (log : Log ε) (number time : Nat) : Prop := .started number time ∈ log

def EndsAt (log : Log ε) (number time : Nat) : Prop :=
  ∃ failure, .ended number time failure ∈ log

/-- The log up to its first failure, which is the last event of it. -/
def FirstFailure (log : Log ε) (number time : Nat) (e : ε) : Prop :=
  ∃ earlier : Log ε, .ended number time (some e) :: earlier <:+ log ∧ earlier.failures = []

variable (log : Log ε) (number time : Nat)

@[simp] theorem starts_started : starts (.started number time :: log) = number :: log.starts := rfl

@[simp] theorem starts_ended (failure : Option ε) :
    starts (.ended number time failure :: log) = log.starts := rfl

@[simp] theorem ends_started : ends (.started number time :: log) = log.ends := rfl

@[simp] theorem ends_ended (failure : Option ε) :
    ends (.ended number time failure :: log) = number :: log.ends := rfl

@[simp] theorem failures_ended_badly (e : ε) :
    failures (.ended number time (some e) :: log) = e :: log.failures := rfl

variable {log number time}

theorem mem_ends : number ∈ log.ends ↔ ∃ time, log.EndsAt number time := by
  simp only [ends, List.mem_filterMap]
  constructor
  · rintro ⟨event, member, found⟩
    cases event with
    | started other start => cases found
    | ended other time failure =>
      obtain rfl := Option.some.inj found
      exact ⟨time, failure, member⟩
  · rintro ⟨time, failure, member⟩
    exact ⟨_, member, rfl⟩

theorem mem_starts : number ∈ log.starts ↔ ∃ time, log.StartsAt number time := by
  simp only [starts, List.mem_filterMap]
  constructor
  · rintro ⟨event, member, found⟩
    cases event with
    | started other time =>
      obtain rfl := Option.some.inj found
      exact ⟨time, member⟩
    | ended other time failure => cases found
  · rintro ⟨time, member⟩
    exact ⟨_, member, rfl⟩

theorem mem_running : number ∈ log.running ↔ number ∈ log.starts ∧ number ∉ log.ends := by
  simp [running]

theorem mem_failures {e : ε} (member : .ended number time (some e) ∈ log) : e ∈ log.failures :=
  List.mem_filterMap.mpr ⟨_, member, rfl⟩

theorem failures_suffix {earlier : Log ε} (before : earlier <:+ log)
    (unfailed : log.failures = []) :
    earlier.failures = [] := by
  obtain ⟨later, rfl⟩ := before
  simp only [failures, List.filterMap_append, List.append_eq_nil_iff] at unfailed
  exact unfailed.2

theorem exists_firstFailure (bad : log.failures ≠ []) :
    ∃ number time e, log.FirstFailure number time e ∧ log.failures.getLast? = some e := by
  induction log with
  | nil => exact absurd rfl bad
  | cons event log ih =>
    by_cases before : failures log = []
    · cases event with
      | started number time => exact absurd before bad
      | ended number time failure =>
        cases failure with
        | none => exact absurd before bad
        | some e =>
          refine ⟨number, time, e, ⟨log, List.suffix_refl _, before⟩, ?_⟩
          rw [failures_ended_badly, before, List.getLast?_singleton]
    · obtain ⟨number, time, e, ⟨earlier, part, first⟩, last⟩ := ih before
      refine ⟨number, time, e, ⟨earlier, part.trans (List.suffix_cons _ _), first⟩, ?_⟩
      cases event with
      | started number time => exact last
      | ended number time failure =>
        cases failure with
        | none => exact last
        | some e => rw [failures_ended_badly, List.getLast?_cons, last, Option.getD_some]

end Log

def Job.span (job : Job ε) : Nat := min job.duration farthest

/-- The time that the first jobs take if they run one after the other. -/
def workload (jobs : List (Job ε)) (count : Nat) : Nat := ((jobs.take count).map Job.span).sum

theorem workload_succ {jobs : List (Job ε)} {count : Nat} {job : Job ε}
    (given : jobs[count]? = some job) :
    workload jobs (count + 1) = workload jobs count + job.span := by
  simp only [workload, List.take_add_one, given, Option.toList_some, List.map_append, List.map_cons,
    List.map_nil, List.sum_append, List.sum_singleton]

theorem workload_mono (jobs : List (Job ε)) (count : Nat) :
    workload jobs count ≤ workload jobs (count + 1) := by
  cases given : jobs[count]? with
  | none =>
    simp only [workload, List.take_add_one, given, Option.toList_none, List.append_nil, le_refl]
  | some job => exact workload_succ given ▸ Nat.le_add_right _ _

theorem workload_le (jobs : List (Job ε)) (count : Nat) :
    workload jobs count ≤ (jobs.map Job.span).sum := by
  have parts : (jobs.map Job.span).sum =
      workload jobs count + ((jobs.drop count).map Job.span).sum := by
    rw [workload, ← List.sum_append, ← List.map_append, List.take_append_drop]
  omega

/-- What may happen from `now` on where so many jobs may run at once. How long a job runs, and
whether it ends badly, is up to the job. -/
inductive Lawful (places now : Nat) (jobs : List (Job ε)) : Log ε → Prop where
  | nothing : Lawful places now jobs []
  | start {log : Log ε} {time : Nat} (before : Lawful places now jobs log)
      (noFailure : log.failures = []) (another : log.starts.length < jobs.length)
      (place : log.running.length < places) (since : now ≤ time)
      (past : ∀ event ∈ log, event.time ≤ time) :
      Lawful places now jobs (.started log.starts.length time :: log)
  | stop {log : Log ε} {number time : Nat} {job : Job ε} (before : Lawful places now jobs log)
      (started : log.StartsAt number time) (running : number ∈ log.running)
      (given : jobs[number]? = some job)
      (past : ∀ event ∈ log, event.time ≤ time + job.span) :
      Lawful places now jobs (.ended number (time + job.span) job.failure :: log)

namespace Lawful

variable {places now : Nat} {jobs : List (Job ε)} {log earlier : Log ε}

theorem starts_eq (lawful : Lawful places now jobs log) :
    log.starts = (List.range log.starts.length).reverse := by
  induction lawful with
  | nothing => rfl
  | start before noFailure another place since past ih =>
    rw [Log.starts_started, List.length_cons, List.range_succ, List.reverse_append, ← ih]
    rfl
  | stop before started running given past ih => exact ih

theorem starts_le (lawful : Lawful places now jobs log) : log.starts.length ≤ jobs.length := by
  induction lawful with
  | nothing => exact Nat.zero_le _
  | start before noFailure another place since past ih => exact another
  | stop before started running given past ih => exact ih

theorem starts_nodup (lawful : Lawful places now jobs log) : log.starts.Nodup := by
  rw [lawful.starts_eq]
  exact List.nodup_reverse.mpr List.nodup_range

theorem not_started (lawful : Lawful places now jobs log) : log.starts.length ∉ log.starts := by
  intro started
  rw [lawful.starts_eq] at started
  simp at started

theorem ends_subset (lawful : Lawful places now jobs log) : log.ends ⊆ log.starts := by
  induction lawful with
  | nothing => exact List.nil_subset _
  | start before noFailure another place since past ih => exact List.subset_cons_of_subset _ ih
  | stop before started running given past ih =>
    exact List.cons_subset.mpr ⟨(Log.mem_running.mp running).1, ih⟩

theorem running_nodup (lawful : Lawful places now jobs log) : log.running.Nodup :=
  lawful.starts_nodup.filter _

theorem running_start (lawful : Lawful places now jobs log) (time : Nat) :
    Log.running (.started log.starts.length time :: log) = log.starts.length :: log.running := by
  have fresh : log.starts.length ∉ log.ends := fun ended =>
    lawful.not_started (lawful.ends_subset ended)
  rw [Log.running, Log.starts_started, Log.ends_started, List.filter_cons_of_pos (by simpa)]
  rfl

theorem running_stop (lawful : Lawful places now jobs log) (number time : Nat)
    (failure : Option ε) :
    Log.running (.ended number time failure :: log) = log.running.erase number := by
  rw [lawful.running_nodup.erase_eq_filter, Log.running, Log.running, List.filter_filter]
  refine List.filter_congr fun other _ => ?_
  simp [bne, beq_eq_decide]

theorem running_le (lawful : Lawful places now jobs log) : log.running.length ≤ places := by
  induction lawful with
  | nothing => exact Nat.zero_le _
  | start before noFailure another place since past ih =>
    rw [before.running_start, List.length_cons]
    exact place
  | stop before started running given past ih =>
    rw [before.running_stop]
    exact (List.length_erase_le).trans ih

theorem starts_perm (lawful : Lawful places now jobs log) :
    log.starts.Perm (log.ends ++ log.running) := by
  induction lawful with
  | nothing => exact List.Perm.refl _
  | start before noFailure another place since past ih =>
    rw [before.running_start]
    exact (ih.cons _).trans List.perm_middle.symm
  | stop before started running given past ih =>
    rw [before.running_stop]
    refine ih.trans (((List.perm_cons_erase running).append_left _).trans ?_)
    exact List.perm_middle

theorem balance (lawful : Lawful places now jobs log) :
    log.starts.length = log.ends.length + log.running.length := by
  rw [lawful.starts_perm.length_eq, List.length_append]

theorem of_suffix (lawful : Lawful places now jobs log) (before : earlier <:+ log) :
    Lawful places now jobs earlier := by
  induction lawful with
  | nothing =>
    obtain rfl := List.suffix_nil.mp before
    exact nothing
  | start prior noFailure another place since past ih =>
    obtain rfl | part := List.suffix_cons_iff.mp before
    · exact start prior noFailure another place since past
    · exact ih part
  | stop prior started running given past ih =>
    obtain rfl | part := List.suffix_cons_iff.mp before
    · exact stop prior started running given past
    · exact ih part

/-- No job starts once another has ended badly. -/
theorem starts_frozen (lawful : Lawful places now jobs log) (before : earlier <:+ log)
    (bad : earlier.failures ≠ []) : log.starts = earlier.starts := by
  induction lawful with
  | nothing => rw [List.suffix_nil.mp before]
  | start prior noFailure another place since past ih =>
    obtain rfl | part := List.suffix_cons_iff.mp before
    · rfl
    · exact absurd (Log.failures_suffix part noFailure) bad
  | stop prior started running given past ih =>
    obtain rfl | part := List.suffix_cons_iff.mp before
    · rfl
    · exact ih part

/-- After a failure only those jobs end that ran beside the one that failed. -/
theorem ends_after (lawful : Lawful places now jobs log) {number time : Nat} {e : ε}
    (before : .ended number time (some e) :: earlier <:+ log) :
    log.ends.length ≤ earlier.ends.length + places := by
  have bad : Log.failures (.ended number time (some e) :: earlier) ≠ [] := List.cons_ne_nil _ _
  have frozen := lawful.starts_frozen before bad
  have prior : Lawful places now jobs earlier :=
    lawful.of_suffix ((List.suffix_cons _ _).trans before)
  have bound := prior.running_le
  have earlierBalance := prior.balance
  have laterBalance := lawful.balance
  rw [frozen, Log.starts_ended] at laterBalance
  omega

theorem sorted (lawful : Lawful places now jobs log) :
    log.Pairwise fun later earlier => earlier.time ≤ later.time := by
  induction lawful with
  | nothing => exact List.Pairwise.nil
  | start before noFailure another place since past ih => exact List.Pairwise.cons past ih
  | stop before started running given past ih => exact List.Pairwise.cons past ih

theorem since (lawful : Lawful places now jobs log) : ∀ event ∈ log, now ≤ event.time := by
  induction lawful with
  | nothing => exact fun _ member => absurd member List.not_mem_nil
  | start before noFailure another place since past ih =>
    exact List.forall_mem_cons.mpr ⟨since, ih⟩
  | stop before started running given past ih =>
    exact List.forall_mem_cons.mpr ⟨(ih _ started).trans (Nat.le_add_right _ _), ih⟩

theorem ends_sorted (lawful : Lawful places now jobs log) :
    log.ends.reverse.Pairwise fun one other =>
      ∃ time later, log.EndsAt one time ∧ log.EndsAt other later ∧ time ≤ later := by
  rw [List.pairwise_reverse, Log.ends, List.pairwise_filterMap]
  refine lawful.sorted.imp_of_mem fun {event before} member memberToo inOrder => ?_
  intro other ends one endsToo
  cases event with
  | started number time => cases ends
  | ended number later failure =>
    cases before with
    | started number time => cases endsToo
    | ended number time failureToo =>
      cases ends
      cases endsToo
      exact ⟨time, later, ⟨_, memberToo⟩, ⟨_, member⟩, inOrder⟩

theorem firstFailure_le (lawful : Lawful places now jobs log) {number time other later : Nat}
    {e f : ε} (first : log.FirstFailure number time e)
    (member : .ended other later (some f) ∈ log) : time ≤ later := by
  obtain ⟨earlier, ⟨after, rfl⟩, unfailed⟩ := first
  obtain ⟨-, -, sorted⟩ := List.pairwise_append.mp lawful.sorted
  obtain behind | same | before := (List.mem_append.mp member).imp_right List.mem_cons.mp
  · exact sorted _ behind _ List.mem_cons_self
  · cases same
    exact Nat.le_refl _
  · exact absurd (unfailed ▸ Log.mem_failures before) List.not_mem_nil

theorem startsAt_unique (lawful : Lawful places now jobs log) {number time other : Nat}
    (one : log.StartsAt number time) (another : log.StartsAt number other) : time = other := by
  induction lawful with
  | nothing => cases one
  | @start log first before noFailure next place since past ih =>
    have never : ∀ {time}, ¬ log.StartsAt log.starts.length time := fun started =>
      before.not_started (Log.mem_starts.mpr ⟨_, started⟩)
    obtain same | earlier := List.mem_cons.mp one
    · cases same
      obtain same | earlier := List.mem_cons.mp another
      · cases same
        rfl
      · exact absurd earlier never
    · obtain same | earlierToo := List.mem_cons.mp another
      · cases same
        exact absurd earlier never
      · exact ih earlier earlierToo
  | stop before started running given past ih =>
    exact ih ((List.mem_cons.mp one).resolve_left nofun)
      ((List.mem_cons.mp another).resolve_left nofun)

theorem punctual (lawful : Lawful places now jobs log) {number time : Nat} {failure : Option ε}
    (member : .ended number time failure ∈ log) :
    ∃ start job, log.StartsAt number start ∧ jobs[number]? = some job ∧
      time = start + job.span ∧ failure = job.failure := by
  induction lawful with
  | nothing => cases member
  | start before noFailure another place since past ih =>
    obtain same | member := List.mem_cons.mp member
    · cases same
    · obtain ⟨start, job, started, rest⟩ := ih member
      exact ⟨start, job, List.mem_cons_of_mem _ started, rest⟩
  | stop before started running given past ih =>
    obtain same | member := List.mem_cons.mp member
    · cases same
      exact ⟨_, _, List.mem_cons_of_mem _ started, given, rfl, rfl⟩
    · obtain ⟨start, job, started, rest⟩ := ih member
      exact ⟨start, job, List.mem_cons_of_mem _ started, rest⟩

theorem fails_of_ended (lawful : Lawful places now jobs log) {e : ε} {number time : Nat}
    (member : .ended number time (some e) ∈ log) : ∃ job ∈ jobs, job.failure = some e := by
  obtain ⟨start, job, -, given, -, failure⟩ := lawful.punctual member
  exact ⟨job, List.mem_of_getElem? given, failure.symm⟩

theorem all_well (lawful : Lawful places now jobs log)
    (all : log.ends.Perm (List.range jobs.length)) (well : log.failures = []) :
    ∀ job ∈ jobs, job.failure = none := by
  intro job member
  obtain ⟨number, given⟩ := List.mem_iff_getElem?.mp member
  have inside : number < jobs.length := (List.getElem?_eq_some_iff.mp given).1
  obtain ⟨time, failure, ended⟩ := Log.mem_ends.mp (all.mem_iff.mpr (List.mem_range.mpr inside))
  obtain ⟨start, same, -, found, -, failed⟩ := lawful.punctual ended
  obtain rfl := Option.some.inj (found.symm.trans given)
  rw [← failed]
  cases failure with
  | none => rfl
  | some e => exact absurd (well ▸ Log.mem_failures ended) List.not_mem_nil

end Lawful

end ValidatorDays.Schedule
