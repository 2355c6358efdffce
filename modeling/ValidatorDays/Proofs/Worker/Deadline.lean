import ValidatorDays.Failure
import ValidatorDays.Proofs.Worker.Outcome

namespace ValidatorDays.Schedule

variable {ε : Type}

section Deadline

variable {places deadline now : Nat} {jobs : List (Job ε)}

theorem not_running_of_early
    (early : ∀ number start job, (log places deadline now jobs).StartsAt number start →
      jobs[number]? = some job → start + job.span < deadline) :
    (log places deadline now jobs).running = [] := by
  by_contra unfinished
  have keeps := last_matches places deadline now jobs
  obtain ⟨number, running⟩ := List.exists_mem_of_ne_nil _ unfinished
  obtain ⟨job, working, rfl⟩ := List.mem_map.mp (keeps.running.mem_iff.mp running)
  obtain ⟨start, given, started, found, finish, -⟩ := (keeps.atWork job working).known
  have ahead := (keeps.atWork job working).ahead
  have inTime := early job.number start given started found
  obtain finished | late := (last_stops places deadline now jobs).2
  · exact unfinished (isOver_iff.mp finished)
  · omega

theorem running_of_slow (onTime : now ≤ deadline) {number start : Nat} {job : Job ε}
    (started : (log places deadline now jobs).StartsAt number start)
    (given : jobs[number]? = some job) (slow : deadline < start + job.span) :
    number ∈ (log places deadline now jobs).running := by
  have keeps := last_matches places deadline now jobs
  refine Log.mem_running.mpr ⟨Log.mem_starts.mpr ⟨start, started⟩, fun ended => ?_⟩
  obtain ⟨time, failure, member⟩ := Log.mem_ends.mp ended
  obtain ⟨begin, same, startedToo, found, rfl, -⟩ := keeps.lawful.punctual member
  obtain rfl := Option.some.inj (given.symm.trans found)
  obtain rfl := keeps.lawful.startsAt_unique started startedToo
  have past : start + job.span ≤ (last places deadline now jobs).now := keeps.past _ member
  have clock : (last places deadline now jobs).now ≤ deadline := State.run_now_le onTime
  omega

end Deadline

end ValidatorDays.Schedule
