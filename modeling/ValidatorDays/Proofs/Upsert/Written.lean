import Mathlib
import ValidatorDays.Proofs.Upsert.Batches
import ValidatorDays.Proofs.Work.Issued
import ValidatorDays.Upsert.Merge

namespace ValidatorDays

open Program

def Write.rows : Write → List Row
  | .merge batch => batch.rows
  | _ => []

def Program.Event.rows : Event → List Row
  | ⟨.write w, _⟩ | ⟨.startWrite w, _⟩ => w.rows
  | _ => []

theorem Program.Event.rows_of_writes {e : Event} (asks : e.1.OfWrites) :
    e.rows = e.startsWrite.flatMap Write.rows := by
  obtain ⟨r, answer⟩ := e
  cases r with
  | startWrite w => exact (List.append_nil _).symm
  | pollWrites underWay => rfl
  | awaitWrites underWay => rfl
  | _ => exact asks.elim

theorem Program.Event.rows_of_fetches {e : Event} (asks : e.1.OfFetches) : e.rows = [] := by
  obtain ⟨r, answer⟩ := e
  cases r with
  | startFetch | pollFetches | awaitFetches => rfl
  | _ => exact asks.elim

theorem rows_of_group {g : Group} {jobs : List (Job Write)} {trace : List Event}
    {results : Outcome (List Unit)} (works : Runs (g.run .writes jobs) trace results) :
    (trace.flatMap Event.rows).Subperm ((jobs.flatMap Job.actions).flatMap Write.rows) ∧
      ∀ all, results = .ok all →
        (trace.flatMap Event.rows).Perm ((jobs.flatMap Job.actions).flatMap Write.rows) := by
  have asks := (Carrier.asks_writes g jobs).asked works
  have rows : trace.flatMap Event.rows = (trace.flatMap Event.startsWrite).flatMap Write.rows := by
    rw [List.flatMap_assoc]
    exact List.flatMap_congr fun e member => Event.rows_of_writes (asks e member)
  have issued := (Carrier.traced_writes.run g).ends works
  rw [rows]
  cases results with
  | ok all =>
    have whole := issued.1.flatMap_right Write.rows
    exact ⟨whole.subperm, fun _ _ => whole⟩
  | error cause =>
    obtain ⟨subperm, same, fewer⟩ := issued
    exact ⟨((same.flatMap_right Write.rows).symm.subperm).trans (fewer.flatMap Write.rows).subperm,
      nofun⟩

variable {g : Group} {t : Target} {rows : List Row} {size : Nat} {trace : List Event}
  {result : Outcome Nat}

/-- Rows that are as wide as their table are merged, each in one statement. Only a failed answer or
the deadline keeps some of them from being written. -/
theorem mergeRows_writes (fit : ∀ row ∈ rows, row.length = t.columns.length)
    (run : Runs (mergeRows g t rows size) trace result) :
    (∀ e ∈ trace, e.1.OfWrites) ∧ (trace.flatMap Event.rows).Subperm rows ∧
      (∀ count, result = .ok count → (trace.flatMap Event.rows).Perm rows) ∧
      ∀ cause, result = .error cause → ¬ cause.IsOwn := by
  obtain ⟨batches, planned⟩ : ∃ batches, Batch.plan t rows size = .ok batches :=
    ⟨_, Batch.plan_eq_ok.mpr ⟨fit, rfl⟩⟩
  have written := Batch.rows_of_plan planned
  unfold mergeRows at run
  rw [planned] at run
  change Runs ((g.run .writes (batches.map Batch.job)).bind fun _ => .done _) trace result at run
  have actions : ((batches.map Batch.job).flatMap Job.actions).flatMap Write.rows = rows := by
    rw [← written, List.flatMap_map, List.flatMap_assoc]
    refine List.flatMap_congr fun batch _ => ?_
    simp [Batch.job, Job.actions, Write.rows]
  have bound : ∀ job ∈ batches.map Batch.job, ∀ w ∈ job.actions, w.bound = .ok () := by
    intro job member w action
    obtain ⟨batch, -, rfl⟩ := List.mem_map.mp member
    cases List.mem_singleton.mp action
    rfl
  rcases runs_bind.mp run with ⟨first, all, rest, rfl, works, ended⟩ | ⟨cause, works, rfl⟩
  · cases ended
    have whole := (rows_of_group works).2 all rfl
    rw [actions] at whole
    rw [List.append_nil]
    exact ⟨(Carrier.asks_writes _ _).asked works, whole.subperm, fun _ _ => whole, by simp⟩
  · have subperm := (rows_of_group works).1
    rw [actions] at subperm
    refine ⟨(Carrier.asks_writes _ _).asked works, subperm, by simp, fun cause same => ?_⟩
    cases same
    exact (Carrier.run_writes_foreign g bound).ends works

end ValidatorDays
