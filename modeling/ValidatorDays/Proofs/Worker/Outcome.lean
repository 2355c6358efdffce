import ValidatorDays.Proofs.Worker.Course

namespace ValidatorDays.Schedule

variable {ε : Type}

/-- Jobs take the places in turn, each for its time, until one ends badly. -/
structure Orderly (places : Nat) (jobs : List (Job ε)) (log : Log ε) : Prop where
  inOrder : ∃ count ≤ jobs.length, log.starts.reverse = List.range count
  capped : ∀ moment : Log ε, moment <:+ log → moment.running.length ≤ places
  punctual : ∀ number time failure, .ended number time failure ∈ log →
    ∃ start job, log.StartsAt number start ∧ jobs[number]? = some job ∧
      time = start + job.span ∧ failure = job.failure
  noStartAfter : ∀ moment : Log ε, moment <:+ log → moment.failures ≠ [] →
    log.starts = moment.starts
  fewEndsAfter : ∀ (earlier : Log ε) (number time : Nat) (e : ε),
    .ended number time (some e) :: earlier <:+ log →
      log.ends.length ≤ earlier.ends.length + 1 + (places - 1)

/-- The result is what the jobs and the order in which they ended make of it. -/
structure Settled (jobs : List (Job ε)) (log : Log ε) (result : Result ε) : Prop where
  completes : (∃ order, result = .completed order) ↔ ∀ job ∈ jobs, job.failure = none
  once : ∀ order, result = .completed order →
    order = log.ends.reverse ∧ order.Perm (List.range jobs.length)
  byTime : ∀ order, result = .completed order → order.Pairwise fun one other =>
    ∃ time later, log.EndsAt one time ∧ log.EndsAt other later ∧ time ≤ later
  fails : (∃ job ∈ jobs, job.failure ≠ none) →
    ∃ number time e, result = .failed e ∧ log.FirstFailure number time e ∧
      ∀ other later f, .ended other later (some f) ∈ log → time ≤ later

theorem Lawful.orderly {places now : Nat} {jobs : List (Job ε)} {log : Log ε}
    (lawful : Lawful places now jobs log) (positive : 0 < places) : Orderly places jobs log where
  inOrder := by
    refine ⟨log.starts.length, lawful.starts_le, ?_⟩
    rw [lawful.starts_eq, List.reverse_reverse, List.length_reverse, List.length_range]
  capped moment before := (lawful.of_suffix before).running_le
  punctual number time failure member := lawful.punctual member
  noStartAfter moment before bad := lawful.starts_frozen before bad
  fewEndsAfter earlier number time e before := by
    have inTime := lawful.ends_after before
    omega

section Run

variable {places deadline now : Nat} {jobs : List (Job ε)}

theorem isOver_iff : (last places deadline now jobs).isOver = true ↔
    (log places deadline now jobs).running = [] := by
  have nobody := (last_stops places deadline now jobs).1.1
  have running := (last_matches places deadline now jobs).running
  have idle : (last places deadline now jobs).isOver = true ↔
      (last places deadline now jobs).atWork = [] := by
    simp [State.isOver, State.atWork, nobody]
  rw [idle]
  constructor
  · intro noneRunning
    rw [noneRunning] at running
    exact running.eq_nil
  · intro noneRunning
    rw [noneRunning] at running
    exact List.map_eq_nil_iff.mp running.symm.eq_nil

theorem run_late_iff : (run places deadline now jobs).result = .late ↔
    (log places deadline now jobs).running ≠ [] := by
  rw [run_eq, Ne, ← isOver_iff]
  show (last places deadline now jobs).result = .late ↔ _
  unfold State.result
  split
  next finished => cases (last places deadline now jobs).failed <;> simp [finished]
  next goesOn => simp [goesOn]

theorem run_failed {e : ε} (noneRunning : (log places deadline now jobs).running = [])
    (first : (log places deadline now jobs).failures.getLast? = some e) :
    (run places deadline now jobs).result = .failed e := by
  rw [run_eq]
  show (last places deadline now jobs).result = _
  rw [State.result, if_pos (isOver_iff.mpr noneRunning),
    (last_matches places deadline now jobs).failed,
    first]

theorem run_completed (noneRunning : (log places deadline now jobs).running = [])
    (well : (log places deadline now jobs).failures = []) :
    (run places deadline now jobs).result =
      .completed (log places deadline now jobs).ends.reverse := by
  have keeps := last_matches places deadline now jobs
  have good : (last places deadline now jobs).failed = Option.none := by
    rw [keeps.failed, well, List.getLast?_nil]
  rw [run_eq]
  show (last places deadline now jobs).result = _
  rw [State.result, if_pos (isOver_iff.mpr noneRunning), good, keeps.done good]

theorem ends_perm (noneRunning : (log places deadline now jobs).running = [])
    (well : (log places deadline now jobs).failures = []) :
    (log places deadline now jobs).ends.Perm (List.range jobs.length) := by
  have keeps := last_matches places deadline now jobs
  obtain ⟨nobody, rest⟩ := (last_stops places deadline now jobs).1
  have idle := isOver_iff.mpr noneRunning
  rw [State.isOver, Bool.and_eq_true, List.isEmpty_iff, List.isEmpty_iff] at idle
  have free : (last places deadline now jobs).taken = 0 := by
    rw [State.taken, nobody, idle.1, idle.2]
    rfl
  have waiting : (last places deadline now jobs).waiting = [] := by
    refine rest.resolve_right ?_
    omega
  have toStart := keeps.toStart (by rw [keeps.failed, well, List.getLast?_nil])
  rw [State.toStart, nobody, waiting] at toStart
  have all : jobs.length ≤ (log places deadline now jobs).starts.length := by
    have short := List.drop_eq_nil_iff.mp toStart.symm
    simpa [State.numbered] using short
  have count := keeps.lawful.starts_le.antisymm all
  have perm := keeps.lawful.starts_perm
  rw [noneRunning, List.append_nil, keeps.lawful.starts_eq, count] at perm
  exact perm.symm.trans (List.reverse_perm _)

theorem run_settled (noneRunning : (log places deadline now jobs).running = []) :
    Settled jobs (log places deadline now jobs) (run places deadline now jobs).result := by
  have lawful := (last_matches places deadline now jobs).lawful
  by_cases well : (log places deadline now jobs).failures = []
  · have result := run_completed noneRunning well
    have all := ends_perm noneRunning well
    have good := lawful.all_well all well
    have order : ∀ {order}, (run places deadline now jobs).result = .completed order →
        order = (log places deadline now jobs).ends.reverse := fun completed =>
      (Result.completed.inj (result.symm.trans completed)).symm
    exact
    { completes := ⟨fun _ => good, fun _ => ⟨_, result⟩⟩
      once := fun _ completed =>
        ⟨order completed, order completed ▸ (List.reverse_perm _).trans all⟩
      byTime := fun _ completed => order completed ▸ lawful.ends_sorted
      fails := fun ⟨job, member, bad⟩ => absurd (good job member) bad }
  · obtain ⟨number, time, e, first, last⟩ := Log.exists_firstFailure well
    have result := run_failed noneRunning last
    have ended : .ended number time (some e) ∈ log places deadline now jobs := by
      obtain ⟨earlier, before, -⟩ := first
      exact before.subset List.mem_cons_self
    obtain ⟨job, member, bad⟩ := lawful.fails_of_ended ended
    have never : ∀ order, (run places deadline now jobs).result ≠ .completed order := by
      intro order completed
      cases result.symm.trans completed
    exact
    { completes := by
        refine ⟨fun ⟨order, completed⟩ => absurd completed (never order), fun good => ?_⟩
        cases (good job member).symm.trans bad
      once := fun order completed => absurd completed (never order)
      byTime := fun order completed => absurd completed (never order)
      fails := fun _ => ⟨number, time, e, result, first,
        fun other later f failed => lawful.firstFailure_le first failed⟩ }

end Run

end ValidatorDays.Schedule
