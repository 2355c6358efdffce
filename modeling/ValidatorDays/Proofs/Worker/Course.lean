import ValidatorDays.Proofs.Worker.Log
import ValidatorDays.Proofs.Worker.Rounds
/-! What a run does, event by event. Each visit keeps the books: the events so far are lawful, and
the jobs in the state are those that the events leave over. So a whole run is lawful. -/
namespace ValidatorDays.Schedule

variable {ε : Type}

def Ready.running? : Ready ε → Option (Running ε)
  | .fresh .. => none
  | .woken job => some job

def Ready.fresh? : Ready ε → Option (Nat × Job ε)
  | .fresh number job => some (number, job)
  | .woken _ => none

section Line

variable (jobs : List (Running ε)) (others : List (Nat × Job ε))

theorem running?_woken : (jobs.map Ready.woken).filterMap Ready.running? = jobs := by
  rw [List.filterMap_map]
  exact List.filterMap_some

theorem fresh?_woken : (jobs.map Ready.woken).filterMap Ready.fresh? = [] := by
  rw [List.filterMap_map]
  exact List.filterMap_none _

theorem running?_fresh :
    (others.map fun j => Ready.fresh j.1 j.2).filterMap Ready.running? = [] := by
  rw [List.filterMap_map]
  exact List.filterMap_none _

theorem fresh?_fresh :
    (others.map fun j => Ready.fresh j.1 j.2).filterMap Ready.fresh? = others := by
  rw [List.filterMap_map]
  exact List.filterMap_some

end Line

namespace State

section Events

variable (places deadline : Nat)

def lookEvents (s : State ε) (room : Nat) (job : Running ε) : Log ε :=
  if room = 0 then []
  else if s.now < job.finish then []
  else [.ended job.number s.now job.failure]

def beginEvents (s : State ε) (room number : Nat) (job : Job ε) : Log ε :=
  let running : Running ε := ⟨number, s.now + min job.duration farthest, job.failure⟩
  if s.failed.isSome then []
  else if job.duration = 0 then [.ended number s.now job.failure, .started number s.now]
  else s.lookEvents room running ++ [.started number s.now]

def visitEvents (s : State ε) (room : Nat) : Ready ε → Log ε
  | .fresh number job => s.beginEvents room number job
  | .woken job => s.lookEvents room job

def lookAroundEvents : Nat → Nat → State ε → Log ε
  | 0, _, _ => []
  | fuel + 1, room, s =>
    match (s.fill places).ready with
    | [] => []
    | first :: rest =>
      let next := { s.fill places with ready := rest }.visit room first
      lookAroundEvents fuel next.2 next.1 ++
        { s.fill places with ready := rest }.visitEvents room first

def roundEvents (s : State ε) : Log ε :=
  lookAroundEvents places (s.waiting.length + s.ready.length + 1) endsPerRound s

def runEvents : Nat → State ε → Log ε
  | 0, _ => []
  | fuel + 1, s =>
    let next := s.round places
    let later :=
      if next.isOver || deadline ≤ next.now then []
      else if !next.postponed.isEmpty then runEvents fuel next.resume
      else
        match next.nextEnd? with
        | none => []
        | some time => if deadline < time then [] else runEvents fuel (next.moveTo time)
    later ++ s.roundEvents places

end Events

/-- The jobs that have started and not ended. -/
def atWork (s : State ε) : List (Running ε) :=
  s.ready.filterMap Ready.running? ++ s.postponed ++ s.asleep

/-- The jobs that may start yet, in the order in which they will. -/
def toStart (s : State ε) : List (Nat × Job ε) := s.ready.filterMap Ready.fresh? ++ s.waiting

section Views

variable (s : State ε) (job : Running ε)

@[simp] theorem atWork_withFirst_fresh (number : Nat) (job : Job ε) :
    (s.withFirst (.fresh number job)).atWork = s.atWork := rfl

@[simp] theorem atWork_withFirst_woken :
    (s.withFirst (.woken job)).atWork = job :: s.atWork := rfl

@[simp] theorem toStart_withFirst_fresh (number : Nat) (job : Job ε) :
    (s.withFirst (.fresh number job)).toStart = (number, job) :: s.toStart := rfl

@[simp] theorem taken_withFirst (first : Ready ε) :
    (s.withFirst first).taken = s.taken + 1 := by
  simp only [taken, withFirst, List.length_cons]
  omega

@[simp] theorem atWork_close : (s.close job).atWork = s.atWork := by simp [atWork]

@[simp] theorem toStart_close : (s.close job).toStart = s.toStart := by simp [toStart]

@[simp] theorem taken_close : (s.close job).taken = s.taken := by simp [taken]

theorem taken_fill (places : Nat) (room : s.taken ≤ places) : (s.fill places).taken ≤ places := by
  simp only [taken, fill, List.length_append, List.length_map, List.length_take] at room ⊢
  omega

theorem toStart_fill (places : Nat) : (s.fill places).toStart = s.toStart := by
  simp only [toStart, fill, List.filterMap_append, fresh?_fresh, List.append_assoc,
    List.take_append_drop]

theorem atWork_fill (places : Nat) : (s.fill places).atWork = s.atWork := by
  simp only [atWork, fill, List.filterMap_append, running?_fresh, List.append_nil]

end Views

/-- What the events so far say of a job that is at work. -/
structure AtWork (jobs : List (Job ε)) (log : Log ε) (start now : Nat) (job : Running ε) :
    Prop where
  known : ∃ time given, log.StartsAt job.number time ∧ jobs[job.number]? = some given ∧
    job.finish = time + given.span ∧ job.failure = given.failure
  ahead : now ≤ job.finish
  soon : job.finish ≤ start + workload jobs log.starts.length

theorem AtWork.later {jobs : List (Job ε)} {log : Log ε} {start now : Nat} {job : Running ε}
    (working : AtWork jobs log start now job) (event : Event ε) :
    AtWork jobs (event :: log) start now job := by
  obtain ⟨time, given, started, rest⟩ := working.known
  have soon := working.soon
  have more := workload_mono jobs log.starts.length
  refine ⟨⟨time, given, List.mem_cons_of_mem _ started, rest⟩, working.ahead, ?_⟩
  cases event with
  | started number time =>
    rw [Log.starts_started, List.length_cons]
    omega
  | ended number time failure => exact soon

def numbered (jobs : List (Job ε)) : List (Nat × Job ε) := jobs.zipIdx.map fun j => (j.2, j.1)

theorem drop_numbered {jobs : List (Job ε)} {count number : Nat} {job : Job ε}
    {rest : List (Nat × Job ε)} (next : (number, job) :: rest = (numbered jobs).drop count) :
    number = count ∧ jobs[count]? = some job ∧ rest = (numbered jobs).drop (count + 1) := by
  have head : (numbered jobs)[count]? = some (number, job) := by
    rw [← List.head?_drop, ← next, List.head?_cons]
  have tail : rest = (numbered jobs).drop (count + 1) := by
    rw [← List.tail_drop, ← next, List.tail_cons]
  simp only [numbered, List.getElem?_map, Option.map_eq_some_iff, List.getElem?_zipIdx,
    Nat.zero_add] at head
  obtain ⟨_, ⟨found, given, rfl⟩, same⟩ := head
  obtain ⟨rfl, rfl⟩ := Prod.mk.inj same
  exact ⟨rfl, given, tail⟩

/-- The state is what the events so far make of the jobs. -/
structure Matches (places now : Nat) (jobs : List (Job ε)) (s : State ε) (log : Log ε) : Prop where
  lawful : Lawful places now jobs log
  since : now ≤ s.now
  soon : s.now ≤ now + workload jobs log.starts.length
  past : ∀ event ∈ log, event.time ≤ s.now
  started : s.started = log.starts
  failed : s.failed = log.failures.getLast?
  done : s.failed = none → s.done = log.ends
  toStart : s.failed = none → s.toStart = (numbered jobs).drop log.starts.length
  running : log.running.Perm (s.atWork.map (·.number))
  atWork : ∀ job ∈ s.atWork, AtWork jobs log now s.now job
  room : s.taken ≤ places

namespace Matches

variable {places deadline room fuel now : Nat} {jobs : List (Job ε)} {s t : State ε} {log : Log ε}

theorem start (now : Nat) (jobs : List (Job ε)) (places : Nat) :
    Matches places now jobs (State.start now jobs) [] where
  lawful := .nothing
  since := Nat.le_refl _
  soon := Nat.le_refl _
  past _ member := absurd member List.not_mem_nil
  started := rfl
  failed := rfl
  done _ := rfl
  toStart _ := rfl
  running := List.Perm.refl _
  atWork _ member := absurd member List.not_mem_nil
  room := Nat.zero_le _

theorem rearrange (keeps : Matches places now jobs s log) (clock : t.now = s.now)
    (started : t.started = s.started) (failed : t.failed = s.failed) (done : t.done = s.done)
    (toStart : s.failed = none → t.toStart = s.toStart) (atWork : t.atWork.Perm s.atWork)
    (room : t.taken ≤ places) : Matches places now jobs t log where
  lawful := keeps.lawful
  since := clock ▸ keeps.since
  soon := clock ▸ keeps.soon
  past := clock ▸ keeps.past
  started := started.trans keeps.started
  failed := failed.trans keeps.failed
  done := fun unfailed => done.trans (keeps.done (failed ▸ unfailed))
  toStart := fun unfailed => (toStart (failed ▸ unfailed)).trans (keeps.toStart (failed ▸ unfailed))
  running := keeps.running.trans (atWork.map _).symm
  atWork := fun job member => clock ▸ keeps.atWork job (atWork.mem_iff.mp member)
  room := room

theorem fill (keeps : Matches places now jobs s log) :
    Matches places now jobs (s.fill places) log :=
  keeps.rearrange rfl rfl rfl rfl (fun _ => s.toStart_fill places)
    (s.atWork_fill places ▸ List.Perm.refl _) (s.taken_fill places keeps.room)

theorem skip {number : Nat} {job : Job ε}
    (keeps : Matches places now jobs (s.withFirst (.fresh number job)) log)
    (bad : s.failed ≠ none) : Matches places now jobs s log := by
  have room := keeps.room
  rw [taken_withFirst] at room
  exact keeps.rearrange rfl rfl rfl rfl (fun unfailed => absurd unfailed bad) (List.Perm.refl _)
    (by omega)

theorem postpone {job : Running ε}
    (keeps : Matches places now jobs (s.withFirst (.woken job)) log) :
    Matches places now jobs { s with postponed := job :: s.postponed } log := by
  have room := keeps.room
  refine keeps.rearrange rfl rfl rfl rfl (fun _ => rfl) ?_ ?_
  · rw [atWork_withFirst_woken]
    simp only [State.atWork, List.append_assoc, List.cons_append]
    exact List.perm_middle
  · rw [taken_withFirst] at room
    simp only [taken, List.length_cons] at room ⊢
    omega

theorem sleep {job : Running ε} (keeps : Matches places now jobs (s.withFirst (.woken job)) log) :
    Matches places now jobs { s with asleep := s.asleep ++ [job] } log := by
  have room := keeps.room
  refine keeps.rearrange rfl rfl rfl rfl (fun _ => rfl) ?_ ?_
  · rw [atWork_withFirst_woken]
    simp only [State.atWork, ← List.append_assoc]
    exact List.perm_append_singleton _ _
  · rw [taken_withFirst] at room
    simp only [taken, List.length_append, List.length_singleton] at room ⊢
    omega

theorem failures_eq_nil (keeps : Matches places now jobs s log) (unfailed : s.failed = none) :
    log.failures = [] := List.getLast?_eq_none_iff.mp (keeps.failed.symm.trans unfailed)

theorem begin {number : Nat} {job : Job ε}
    (keeps : Matches places now jobs (s.withFirst (.fresh number job)) log)
    (good : s.failed = none) : Matches places now jobs
      (withFirst { s with started := number :: s.started }
        (.woken ⟨number, s.now + min job.duration farthest, job.failure⟩))
      (.started number s.now :: log) := by
  have next := keeps.toStart good
  rw [toStart_withFirst_fresh] at next
  obtain ⟨rfl, given, rest⟩ := drop_numbered next
  have another : log.starts.length < jobs.length := (List.getElem?_eq_some_iff.mp given).1
  have place : log.running.length < places := by
    have room := keeps.room
    have same := keeps.running.length_eq
    rw [atWork_withFirst_fresh, List.length_map] at same
    have part : s.atWork.length ≤ s.taken := by
      have woken := s.ready.length_filterMap_le Ready.running?
      simp only [State.atWork, taken, List.length_append]
      omega
    rw [taken_withFirst] at room
    omega
  exact
  { lawful := .start keeps.lawful (keeps.failures_eq_nil good) another place keeps.since keeps.past
    since := keeps.since
    soon := keeps.soon.trans (Nat.add_le_add_left (workload_mono jobs _) _)
    past := List.forall_mem_cons.mpr ⟨Nat.le_refl _, keeps.past⟩
    started := congrArg (_ :: ·) keeps.started
    failed := keeps.failed
    done := keeps.done
    toStart := fun _ => rest
    running := by
      rw [keeps.lawful.running_start, atWork_withFirst_woken, List.map_cons]
      exact keeps.running.cons _
    atWork := by
      rw [atWork_withFirst_woken]
      have soon : s.now ≤ now + workload jobs log.starts.length := keeps.soon
      refine List.forall_mem_cons.mpr ⟨⟨?_, Nat.le_add_right _ _, ?_⟩, fun other member => ?_⟩
      · exact ⟨s.now, job, List.mem_cons_self, given, rfl, rfl⟩
      · rw [Log.starts_started, List.length_cons, workload_succ given]
        exact (Nat.add_le_add_right soon job.span).trans (Nat.add_assoc _ _ _).le
      · exact (keeps.atWork other member).later _
    room := by
      have room := keeps.room
      rw [taken_withFirst] at room ⊢
      exact room }

theorem close {job : Running ε} (keeps : Matches places now jobs (s.withFirst (.woken job)) log)
    (due : ¬ s.now < job.finish) :
    Matches places now jobs (s.close job) (.ended job.number s.now job.failure :: log) := by
  have working := keeps.atWork job List.mem_cons_self
  obtain ⟨time, given, started, found, finish, failure⟩ := working.known
  have inTime : s.now = time + given.span := by
    have ahead : s.now ≤ job.finish := working.ahead
    omega
  have running : job.number ∈ log.running :=
    keeps.running.mem_iff.mpr (List.mem_map_of_mem List.mem_cons_self)
  exact
  { lawful := by
      rw [failure, inTime]
      exact .stop keeps.lawful started running found (inTime ▸ keeps.past)
    since := (close_now s job).symm ▸ keeps.since
    soon := (close_now s job).symm ▸ keeps.soon
    past := by
      rw [close_now]
      exact List.forall_mem_cons.mpr ⟨Nat.le_refl _, keeps.past⟩
    started := (close_started s job).trans keeps.started
    failed := by
      have failed : s.failed = log.failures.getLast? := keeps.failed
      unfold State.close
      cases job.failure with
      | none => exact failed
      | some e =>
        rw [Log.failures_ended_badly, List.getLast?_cons, ← failed]
        cases s.failed <;> rfl
    done := by
      have done : s.failed = none → s.done = log.ends := keeps.done
      unfold State.close
      cases job.failure with
      | none => exact fun unfailed => congrArg (_ :: ·) (done unfailed)
      | some e =>
        intro unfailed
        rw [Option.or_eq_none_iff] at unfailed
        exact absurd unfailed.2 (Option.some_ne_none e)
    toStart := by
      rw [toStart_close]
      intro unfailed
      refine keeps.toStart ?_
      show s.failed = Option.none
      revert unfailed
      unfold State.close
      cases job.failure with
      | none => exact id
      | some e => exact fun unfailed => (Option.or_eq_none_iff.mp unfailed).1
    running := by
      rw [keeps.lawful.running_stop, atWork_close]
      have rest := keeps.running.erase job.number
      rwa [atWork_withFirst_woken, List.map_cons, List.erase_cons_head] at rest
    atWork := by
      rw [atWork_close, close_now]
      exact fun other member =>
        (keeps.atWork other (List.mem_cons_of_mem _ member)).later _
    room := by
      have room := keeps.room
      rw [taken_withFirst] at room
      rw [taken_close]
      omega }

theorem look {job : Running ε} (keeps : Matches places now jobs (s.withFirst (.woken job)) log) :
    Matches places now jobs (s.look room job).1 (s.lookEvents room job ++ log) := by
  unfold State.look lookEvents
  split
  next full => exact keeps.postpone
  split
  next early => exact keeps.sleep
  next due => exact keeps.close due

theorem visit {first : Ready ε} (keeps : Matches places now jobs (s.withFirst first) log) :
    Matches places now jobs (s.visit room first).1 (s.visitEvents room first ++ log) := by
  cases first with
  | woken job => exact keeps.look
  | fresh number job =>
    show Matches places now jobs (s.begin room number job).1 (s.beginEvents room number job ++ log)
    unfold State.begin beginEvents
    by_cases bad : s.failed.isSome
    · rw [if_pos bad, if_pos bad]
      exact keeps.skip (Option.isSome_iff_ne_none.mp bad)
    rw [if_neg bad, if_neg bad]
    have begun := keeps.begin (Option.not_isSome_iff_eq_none.mp bad)
    split
    next instant =>
      refine begun.close ?_
      rw [instant]
      exact Nat.lt_irrefl _
    next lasting =>
      rw [List.append_assoc]
      exact begun.look

theorem lookAround (keeps : Matches places now jobs s log) :
    Matches places now jobs (s.lookAround places fuel room)
      (lookAroundEvents places fuel room s ++ log) := by
  induction fuel generalizing s room log with
  | zero => exact keeps
  | succ fuel ih =>
    have filled := keeps.fill
    rw [State.lookAround, lookAroundEvents]
    cases line : (s.fill places).ready with
    | nil => exact filled
    | cons first rest =>
      rw [← withFirst_tail line] at filled
      rw [List.append_assoc]
      exact ih filled.visit

theorem round (keeps : Matches places now jobs s log) :
    Matches places now jobs (s.round places) (s.roundEvents places ++ log) := keeps.lookAround

theorem resume (keeps : Matches places now jobs s log) (nobody : s.ready = []) :
    Matches places now jobs s.resume log := by
  refine keeps.rearrange rfl rfl rfl rfl (fun _ => ?_) ?_ ?_
  · simp only [State.toStart, State.resume, fresh?_woken, nobody, List.filterMap_nil]
  · simp only [State.atWork, State.resume, running?_woken, nobody, List.filterMap_nil,
      List.append_nil, List.nil_append]
    exact List.Perm.refl _
  · have room := keeps.room
    simp only [taken, State.resume, nobody, List.length_map, List.length_nil] at room ⊢
    omega

theorem wait {time : Nat} (keeps : Matches places now jobs s log) (onward : s.now ≤ time)
    (soon : time ≤ now + workload jobs log.starts.length)
    (early : ∀ job ∈ s.atWork, time ≤ job.finish) :
    Matches places now jobs { s with now := time } log where
  lawful := keeps.lawful
  since := keeps.since.trans onward
  soon := soon
  past event member := (keeps.past event member).trans onward
  started := keeps.started
  failed := keeps.failed
  done := keeps.done
  toStart := keeps.toStart
  running := keeps.running
  atWork job member :=
    ⟨(keeps.atWork job member).known, early job member, (keeps.atWork job member).soon⟩
  room := keeps.room

theorem moveTo {time : Nat} (keeps : Matches places now jobs s log) (onward : s.now ≤ time)
    (soon : time ≤ now + workload jobs log.starts.length)
    (early : ∀ job ∈ s.atWork, time ≤ job.finish) (nobody : s.ready = [])
    (noPostponed : s.postponed = []) : Matches places now jobs (s.moveTo time) log := by
  have parted : (s.asleep.filter (·.finish ≤ time) ++ s.asleep.filter (time < ·.finish)).Perm
      s.asleep := by
    have rest : s.asleep.filter (time < ·.finish) =
        s.asleep.filter (fun job => !decide (job.finish ≤ time)) :=
      List.filter_congr fun job _ => by rw [← decide_not, decide_eq_decide]; omega
    rw [rest]
    exact List.filter_append_perm _ _
  refine (keeps.wait onward soon early).rearrange rfl rfl rfl rfl (fun _ => ?_) ?_ ?_
  · simp only [State.toStart, State.moveTo, fresh?_woken, nobody, List.filterMap_nil]
  · simpa only [State.atWork, State.moveTo, running?_woken, nobody, noPostponed, List.filterMap_nil,
      List.append_nil, List.nil_append] using parted
  · have room := keeps.room
    have count := parted.length_eq
    rw [List.length_append] at count
    simp only [taken, State.moveTo, nobody, noPostponed, List.length_map, List.length_nil] at room ⊢
    omega

theorem run (keeps : Matches places now jobs s log) :
    Matches places now jobs (s.run places deadline fuel)
      (runEvents places deadline fuel s ++ log) := by
  induction fuel generalizing s log with
  | zero => exact keeps
  | succ fuel ih =>
    obtain ⟨nobody, -⟩ := s.round_quiet places
    have rounded := keeps.round
    rw [State.run, runEvents, List.append_assoc]
    by_cases stop : (s.round places).isOver || decide (deadline ≤ (s.round places).now)
    · rw [if_pos stop, if_pos stop]
      exact rounded
    rw [if_neg stop, if_neg stop]
    by_cases postponed : !(s.round places).postponed.isEmpty
    · rw [if_pos postponed, if_pos postponed]
      exact ih (rounded.resume nobody)
    rw [if_neg postponed, if_neg postponed]
    have noPostponed : (s.round places).postponed = [] := by simpa using postponed
    have atWork : (s.round places).atWork = (s.round places).asleep := by
      simp only [State.atWork, nobody, noPostponed, List.filterMap_nil, List.nil_append]
    cases next : (s.round places).nextEnd? with
    | none => exact rounded
    | some time =>
      obtain ⟨⟨job, asleep, due⟩, early⟩ := nextEnd?_mem next
      have working := rounded.atWork job (atWork ▸ asleep)
      have onward : (s.round places).now ≤ time := due ▸ working.ahead
      have soon := due ▸ working.soon
      rw [← atWork] at early
      by_cases late : deadline < time
      · have before : (s.round places).now ≤ deadline := by
          rw [Bool.or_eq_true, decide_eq_true_eq, not_or] at stop
          omega
        simp only [if_pos late, List.nil_append]
        exact rounded.wait before (late.le.trans soon)
          fun job member => late.le.trans (early job member)
      · simp only [if_neg late]
        exact ih (rounded.moveTo onward soon early nobody noPostponed)

end Matches

end State

section Run

variable (places deadline now : Nat) (jobs : List (Job ε))

/-- The state in which a run stops. -/
def last : State ε :=
  (State.start now jobs).run (max places 1) deadline (roundsPerJob * jobs.length + 1)

def log : Log ε :=
  (State.start now jobs).runEvents (max places 1) deadline (roundsPerJob * jobs.length + 1)

theorem run_eq : run places deadline now jobs =
    ⟨(last places deadline now jobs).result, (last places deadline now jobs).started.reverse,
      (last places deadline now jobs).now⟩ := rfl

theorem last_matches :
    State.Matches (max places 1) now jobs (last places deadline now jobs)
      (log places deadline now jobs) := by
  have keeps : State.Matches (max places 1) now jobs (last places deadline now jobs)
      (log places deadline now jobs ++ []) := (State.Matches.start now jobs (max places 1)).run
  rwa [List.append_nil] at keeps

theorem last_stops :
    State.Quiet (max places 1) (last places deadline now jobs) ∧
      ((last places deadline now jobs).isOver = true ∨
        deadline ≤ (last places deadline now jobs).now) := by
  apply State.run_stops
  have atMost := State.round_roundsLeft (State.start now jobs) (max places 1)
  have all : (State.start now jobs).roundsLeft = 2 * jobs.length := by
    simp [State.roundsLeft, State.start]
  rw [all] at atMost
  unfold roundsPerJob
  omega

end Run

end ValidatorDays.Schedule
