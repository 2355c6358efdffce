import Mathlib
import ValidatorDays.Proofs.Status.Books
import ValidatorDays.Proofs.Upsert.Parameters
import ValidatorDays.Proofs.Work.Order

namespace ValidatorDays

open Program

theorem Program.Transaction.shown_of_writes {seen : List Event} (asks : ∀ e ∈ seen, e.1.OfWrites) :
    Transaction.shown none seen = seen.flatMap Event.landsWrite := by
  induction seen with
  | nil => rfl
  | cons e others ih =>
    obtain ⟨first, rest⟩ := List.forall_mem_cons.mp asks
    have one : Transaction.after none e = none ∧ Transaction.shows none e = e.landsWrite := by
      obtain ⟨r, answer⟩ := e
      cases r with
      | startWrite w => exact ⟨rfl, rfl⟩
      | pollWrites underWay => obtain _ | ⟨i, cause | ⟨⟩⟩ := answer <;> exact ⟨rfl, rfl⟩
      | awaitWrites underWay => obtain _ | ⟨i, cause | ⟨⟩⟩ := answer <;> exact ⟨rfl, rfl⟩
      | _ => exact first.elim
    rw [shown, one.1, one.2, ih rest, List.flatMap_cons]

theorem Group.HandsOver.map {α β : Type} {g : Group} {planned : List Write} {trace : List Event}
    {result : Outcome α} (hands : g.HandsOver planned trace result) (f : α → β) :
    g.HandsOver planned trace (result.map f) := by
  obtain ⟨inOrder, once, stops, succeeds, fails, oneByOne⟩ := hands
  cases result with
  | ok a =>
    exact ⟨inOrder, once, stops, ⟨fun _ => succeeds.mp ⟨a, rfl⟩, fun _ => ⟨f a, rfl⟩⟩, nofun, nofun⟩
  | error cause =>
    refine ⟨inOrder, once, stops, ⟨nofun, fun all => ?_⟩, ?_, ?_⟩
    · obtain ⟨a, never⟩ := succeeds.mpr all
      cases never
    · intro inTime _ same
      cases same
      exact fails inTime cause rfl
    · intro one inTime _ same
      cases same
      exact oneByOne one inTime cause rfl

theorem Batch.sum_rowCount {t : Target} {rows : List Row} {size : Nat} {batches : List Batch}
    (planned : plan t rows size = .ok batches) :
    (batches.map rowCount).foldr (· + ·) 0 = rows.length := by
  rw [← rows_of_plan planned, List.length_flatMap]
  rfl

/-- The batches are handed over as they were planned and no more of them once one is refused. The
rows count as written just if all batches have landed, and else the first refusal is the failure.
Whatever comes of the others, each batch that has landed shows. -/
theorem mergeRows_hands_over {g : Group} {t : Target} {rows : List Row} {size : Nat}
    (fit : ∀ row ∈ rows, row.length = t.columns.length) {trace : List Event} {result : Outcome Nat}
    (run : Runs (mergeRows g t rows size) trace result) :
    ∃ batches, Batch.plan t rows size = .ok batches ∧
      g.HandsOver (batches.map .merge) trace result ∧
      (∀ count, result = .ok count → count = rows.length) ∧
      Transaction.shown none trace = trace.flatMap Event.landsWrite := by
  obtain ⟨batches, planned⟩ : ∃ batches, Batch.plan t rows size = .ok batches :=
    ⟨_, Batch.plan_eq_ok.mpr ⟨fit, rfl⟩⟩
  have count := Batch.sum_rowCount planned
  unfold mergeRows at run
  rw [planned] at run
  change Runs ((g.run .writes (batches.map Batch.job)).bind fun _ => .done _) trace result at run
  rw [count] at run
  obtain ⟨inner, works, rfl⟩ : ∃ inner, Runs (g.run .writes (batches.map Batch.job)) trace inner ∧
      result = inner.map fun _ => rows.length := by
    rcases runs_bind.mp run with ⟨first, all, rest, rfl, works, ended⟩ | ⟨cause, works, rfl⟩
    · cases ended
      exact ⟨.ok all, (List.append_nil first).symm ▸ works, rfl⟩
    · exact ⟨.error cause, works, rfl⟩
  have firsts : (batches.map Batch.job).map Job.first = batches.map .merge := by
    rw [List.map_map]
    rfl
  have bound : ∀ w ∈ (batches.map Batch.job).map Job.first, w.bound = .ok () := by
    rw [firsts]
    intro w member
    obtain ⟨b, -, rfl⟩ := List.mem_map.mp member
    rfl
  have hands := g.run_hands_over (by simp [Batch.job]) bound works
  rw [firsts] at hands
  refine ⟨batches, planned, hands.map _, ?_, ?_⟩
  · intro n same
    cases inner with
    | ok all =>
      cases same
      rfl
    | error cause => cases same
  · exact Transaction.shown_of_writes ((Carrier.asks_writes g _).asked works)

/-- A world that refuses the statement whose first row is that of the third validator. -/
def thirdRefused (r : Request) : r.Answer :=
  match r, Books.calmAnswer 5 (fun _ => none) r with
  | .awaitWrites (.merge ⟨_, (.int4 2 :: _) :: _⟩ :: _), some (i, _) =>
    some (i, .error .noConnection)
  | _, answer => answer

def oneAtATime : Group := ⟨"sync_duties", 1, .ofSeconds 60⟩

def threeBatches : Program Nat := mergeRows oneAtATime SyncDuties.target Batch.fiveDuties 2

/-- Of three batches the second is refused, and the third is never handed over. -/
theorem mergeRows_hands_over_two :
    (∀ row ∈ Batch.fiveDuties, row.length = SyncDuties.target.columns.length) ∧
    ∃ trace first second third, Runs threeBatches trace
        (.error (.stage (.notPersisted .noConnection))) ∧
      Batch.plan SyncDuties.target Batch.fiveDuties 2 = .ok [first, second, third] ∧
      trace.flatMap Event.startsWrite = [.merge first, .merge second] ∧
      trace.flatMap Event.refusesWrite = [(.merge second, .noConnection)] ∧
      Transaction.shown none trace = [.merge first] := by
  have fit : ∀ row ∈ Batch.fiveDuties, row.length = SyncDuties.target.columns.length := by decide
  have run := runs_observe (steady thirdRefused) threeBatches ()
  have result : (threeBatches.observe (steady thirdRefused) ()).2 =
      .error (.stage (.notPersisted .noConnection)) := by cbv
  have inTime : ((threeBatches.observe (steady thirdRefused) ()).1.all
      fun e => decide (¬ e.IsLate)) = true := by cbv
  have two : ((threeBatches.observe (steady thirdRefused) ()).1.flatMap Event.startsWrite).length =
      2 := by cbv
  rw [result] at run
  obtain ⟨batches, planned, hands, -, shown⟩ := mergeRows_hands_over fit run
  obtain ⟨done, w, e, rest, inTurn, started, landed, refused, told⟩ :=
    hands.oneByOne (Nat.le_refl 1) (by simpa using inTime) _ rfl
  have three : batches.length = 3 := by
    obtain ⟨-, rfl⟩ := Batch.plan_eq_ok.mp planned
    have size : SyncDuties.target.clampBatch 2 = 2 := by decide
    rw [List.length_map, Batch.length_pieces, size]
    rfl
  obtain ⟨first, second, third, rfl⟩ := List.length_eq_three.mp three
  rw [started, List.length_append] at two
  obtain ⟨v, rfl⟩ := List.length_eq_one_iff.mp (Nat.succ.inj two)
  cases inTurn
  cases told
  exact ⟨fit, _, first, second, third, run, planned, started, refused, shown.trans landed⟩

end ValidatorDays
