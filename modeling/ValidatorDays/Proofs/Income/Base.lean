import ValidatorDays.Proofs.Income.Course
import ValidatorDays.Proofs.Status.Books

namespace ValidatorDays

open Program

namespace StatusTable

def Newest (t : StatusTable) : Option Day → Prop
  | some last => t.Finished last ∧ ∀ day, t.Finished day → day ≤ last
  | none => ∀ day, ¬ t.Finished day

theorem Newest.unique {t : StatusTable} {last other : Option Day} (newest : t.Newest last)
    (newestToo : t.Newest other) : last = other := by
  cases last with
  | none =>
    cases other with
    | none => rfl
    | some day => exact (newest day newestToo.1).elim
  | some day =>
    cases other with
    | none => exact (newestToo day newest.1).elim
    | some day' =>
      have before : day.number ≤ day'.number := newestToo.2 day newest.1
      have after : day'.number ≤ day.number := newest.2 day' newestToo.1
      exact congrArg (some <| Day.mk ·) (Int.le_antisymm before after)

end StatusTable

namespace IncomeRequest

variable {r : IncomeRequest} {t : StatusTable} {last : Option Day}
  {answer : Except Report (Option Json)} {trace : List Event} {points : IncomeHistory}

/-- The point is for the day after `base`, and the run asked for the end balances of `base` and of
no other day. -/
structure GoesOnFrom (r : IncomeRequest) (trace : List Event) (point : IncomePoint) (base : Day) :
    Prop where
  next : point.day = ⟨base.number + 1⟩
  asks : ∃ sum, ⟨.query (.endBalanceSum (ascending r.indices) base), .ok sum⟩ ∈ trace
  only : ∀ e ∈ trace, ∀ indices day, e.1 = .query (.endBalanceSum indices day) → day = base

theorem lastDay_eq {stored : IncomeHistory} {base : Day}
    (run : Runs (lastDay stored) trace (.ok base)) (newest : t.Newest last)
    (told : ∀ day, ⟨.query .lastExportedDay, .ok day⟩ ∈ trace → t.Newest day) :
    base = (stored.getLast?.map IncomePoint.day).getD (last.getD ⟨-1⟩) := by
  rcases lastDay_ok run with ⟨row, ends, rfl, rfl⟩ | ⟨rfl, last', rfl, rfl⟩
  · rw [ends]
    rfl
  · rw [newest.unique (told last' (List.mem_singleton_self _))]
    rfl

def firstDayExported : StatusTable := StatusTable.empty.put .genesis (some ⟨true, fun _ => true⟩)

theorem newest_firstDayExported : firstDayExported.Newest (some .genesis) := by
  refine ⟨rfl, fun day finished => ?_⟩
  rw [firstDayExported, StatusTable.finished_put] at finished
  split at finished
  · next same => exact same ▸ Int.le_refl day.number
  · exact absurd finished (StatusTable.not_finished_empty day)

end IncomeRequest
end ValidatorDays
