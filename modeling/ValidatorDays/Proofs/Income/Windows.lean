import Mathlib
import ValidatorDays.Proofs.Income.Estimate
import ValidatorDays.Proofs.Status.Books
import ValidatorDays.Stage.Transfers

namespace ValidatorDays

open Program

inductive Transfer where
  | deposit
  | withdrawal

/-- The statement reads the transfers of this kind in the block of the slot. -/
def Query.covers (s : Slot) : Transfer → Query → Bool
  | .deposit, .deposits range _ | .deposit, .depositsSum _ range => decide (s.epoch ∈ range)
  | .withdrawal, .withdrawals first stop | .withdrawal, .withdrawalsSum _ first stop =>
    decide (first.number ≤ s.number ∧ s.number < stop.number)
  | _, _ => false

def timesRead (kind : Transfer) (s : Slot) (trace : List Event) : Nat :=
  (queries trace).countP (·.covers s kind)

theorem timesRead_append (kind : Transfer) (s : Slot) (first rest : List Event) :
    timesRead kind s (first ++ rest) = timesRead kind s first + timesRead kind s rest := by
  rw [timesRead, queries_append, List.countP_append]
  rfl

theorem Program.Woven.timesRead {own other seen : List Event} (woven : Woven own other seen)
    (kind : Transfer) (s : Slot) :
    timesRead kind s seen = ValidatorDays.timesRead kind s own +
      ValidatorDays.timesRead kind s other := by
  rw [ValidatorDays.timesRead, woven.queries.countP_eq, List.countP_append]
  rfl

theorem EpochRange.mem_iff {r : EpochRange} {e : Epoch} :
    e ∈ r ↔ r.first.number ≤ e.number ∧ e.number ≤ r.last.number := Iff.rfl

theorem EpochRange.mem_slots {r : EpochRange} {first stop : Slot}
    (slots : r.slots = .ok (first, stop)) (s : Slot) :
    first.number ≤ s.number ∧ s.number < stop.number ↔ s.epoch ∈ r := by
  have firstSlot {e : Epoch} {s : Slot} (found : e.firstSlot = .ok s) :
      s.number = e.number * 32 := by
    obtain ⟨n, checked, same⟩ := bind_eq_ok.mp found
    obtain ⟨-, rfl⟩ := Bounds.check_eq_ok_iff.mp checked
    cases same
    rfl
  obtain ⟨first', begins, rest⟩ := bind_eq_ok.mp slots
  obtain ⟨after, next, rest⟩ := bind_eq_ok.mp rest
  obtain ⟨stop', ends, same⟩ := bind_eq_ok.mp rest
  obtain ⟨n, checked, following⟩ := bind_eq_ok.mp next
  obtain ⟨-, rfl⟩ := Bounds.check_eq_ok_iff.mp checked
  cases following
  cases same
  have start := firstSlot begins
  have finish := firstSlot ends
  rw [mem_iff, Slot.epoch, slotsPerEpoch, start, finish]
  simp only
  omega

theorem EpochRange.shiftedBack_eq {r shifted : EpochRange} (back : r.shiftedBack = .ok shifted) :
    shifted.first.number = max (r.first.number - 1) 0 ∧
      shifted.last.number = max (r.last.number - 1) shifted.first.number := by
  obtain ⟨first, checked, rest⟩ := bind_eq_ok.mp back
  obtain ⟨last, checkedToo, same⟩ := bind_eq_ok.mp rest
  obtain ⟨-, rfl⟩ := Bounds.check_eq_ok_iff.mp checked
  obtain ⟨-, rfl⟩ := Bounds.check_eq_ok_iff.mp checkedToo
  cases same
  exact ⟨rfl, rfl⟩

section Runs

variable {trace : List Event}

theorem transfers_queries {settings : Settings} {day : Day}
    (run : Runs (Transfers.stage settings day) trace (.ok ())) :
    ∃ range first stop, day.epochs.shiftedBack = .ok range ∧ range.slots = .ok (first, stop) ∧
      (queries trace).Perm [.finalizedEpochs day.epochs, .deposits range day,
        .withdrawals first stop] := by
  obtain ⟨gate, _, more, rfl, gated, passed⟩ := run.bind_ok
  obtain ⟨range, back, shifted⟩ := passed.checked_ok
  obtain ⟨⟨first, stop⟩, slots, located⟩ := shifted.checked_ok
  obtain ⟨reads, ⟨deposits, withdrawals⟩, rest, rfl, read, afterReads⟩ := located.bind_ok
  obtain ⟨depositBatches, -, planned⟩ := afterReads.staged_ok
  obtain ⟨withdrawalBatches, -, written⟩ := planned.staged_ok
  obtain ⟨finalized, _, rfl, counted⟩ := gated.read_ok
  obtain ⟨rfl, -⟩ := counted.outcome_ok
  have onlyWrites : queries rest = [] := by
    split at written
    · rw [written.writeStage_ok]
      rfl
    · obtain ⟨before, _, last, rfl, together, marked⟩ := written.bind_ok
      rw [together.writeTogether_ok, marked.writeStage_ok, queries_append, queries_committed]
      rfl
  refine ⟨range, first, stop, back, slots, ?_⟩
  rw [queries_append, queries_append, onlyWrites, List.append_nil]
  exact read.reads_ok.queries.cons _

theorem times_exported {settings : Settings} {n : Nat}
    (run : Runs (Transfers.stage settings ⟨n⟩) trace (.ok ())) (kind : Transfer) (s : Slot) :
    timesRead kind s trace =
      if max (225 * (n : Int) - 1) 0 ≤ s.epoch.number ∧ s.epoch.number < 225 * (n + 1) - 1
      then 1 else 0 := by
  obtain ⟨range, first, stop, back, slots, asked⟩ := transfers_queries run
  obtain ⟨starts, ends⟩ := EpochRange.shiftedBack_eq back
  have inside : s.epoch ∈ range ↔
      max (225 * (n : Int) - 1) 0 ≤ s.epoch.number ∧ s.epoch.number < 225 * (n + 1) - 1 := by
    rw [EpochRange.mem_iff, ends, starts]
    simp only [Day.epochs, epochsPerDay]
    omega
  rw [timesRead, asked.countP_eq]
  cases kind with
  | deposit => simp [Query.covers, List.countP_cons, inside]
  | withdrawal => simp [Query.covers, List.countP_cons, EpochRange.mem_slots slots, inside]

theorem IncomeRequest.since_eq_none {base : Day} {lastFinalized : Epoch}
    (nothing : since base lastFinalized = none) :
    lastFinalized.number < 225 * (base.number + 1) := by
  unfold since at nothing
  split at nothing
  · cases nothing
  · next late =>
    have before := Int.not_le.mp late
    simp only [epochsPerDay] at before
    omega

theorem IncomeRequest.mem_since {base : Day} {lastFinalized : Epoch} {range : EpochRange}
    (moved : since base lastFinalized = some range) (e : Epoch) :
    e ∈ range ↔ 225 * (base.number + 1) ≤ e.number ∧ e.number ≤ lastFinalized.number := by
  unfold since at moved
  split at moved
  · cases moved
    rw [EpochRange.mem_iff, Int.mul_comm, epochsPerDay]
  · cases moved

theorem times_estimated {indices : List ValidatorIndex} {base : Day} {lastFinalized : Epoch}
    {point : IncomePoint}
    (run : Runs (IncomeRequest.estimate indices base lastFinalized) trace (.ok point))
    (kind : Transfer) (s : Slot) : timesRead kind s trace =
      if 225 * (base.number + 1) ≤ s.epoch.number ∧ s.epoch.number ≤ lastFinalized.number
      then 1 else 0 := by
  obtain ⟨balances, lastBalance, deposits, withdrawals, read, -⟩ := IncomeRequest.estimate_ok run
  obtain ⟨deposited, withdrawn, moves, rest, depositing, withdrawing, wovenMoves, wovenRest,
    woven⟩ := IncomeRequest.readings_ok read
  -- The balances are of no slot, so only the money that was moved counts.
  have unasked : timesRead kind s [⟨.indexer (.balancesAt indices lastFinalized),
      .ok balances⟩] = 0 := by cases kind <;> rfl
  have unread : timesRead kind s [⟨.query (.endBalanceSum indices base), .ok lastBalance⟩] = 0 := by
    cases kind <;> rfl
  rw [woven.timesRead, wovenRest.timesRead, wovenMoves.timesRead, unasked, unread, Nat.zero_add,
    Nat.zero_add, IncomeRequest.depositedSince_ok depositing]
  obtain ⟨nothing, rfl⟩ | ⟨range, first, stop, moved, slots, rfl⟩ :=
    IncomeRequest.withdrawnSince_ok withdrawing
  · have early := IncomeRequest.since_eq_none nothing
    rw [nothing, if_neg (by omega)]
    cases kind <;> rfl
  · have inside := IncomeRequest.mem_since moved s.epoch
    rw [moved]
    cases kind with
    | deposit => simp [timesRead, queries, Query.covers, List.countP_cons, inside]
    | withdrawal =>
      simp [timesRead, queries, Query.covers, List.countP_cons, EpochRange.mem_slots slots, inside]

/-- Together the windows of the first days reach from genesis to one epoch before the end of the
last of them, and no epoch lies in two. -/
theorem times_exported_upTo {settings : Nat → Settings} {exports : Nat → List Event} {days : Nat}
    (exported : ∀ n < days, Runs (Transfers.stage (settings n) ⟨n⟩) (exports n) (.ok ()))
    (kind : Transfer) (s : Slot) : timesRead kind s ((List.range days).flatMap exports) =
      if 0 ≤ s.epoch.number ∧ s.epoch.number < 225 * days - 1 then 1 else 0 := by
  induction days with
  | zero =>
    rw [if_neg (by omega)]
    cases kind <;> rfl
  | succ n ih =>
    have before := ih fun m earlier => exported m (Nat.lt_succ_of_lt earlier)
    have last := times_exported (exported n (Nat.lt_succ_self n)) kind s
    rw [List.range_succ, List.flatMap_append, List.flatMap_singleton, timesRead_append, before,
      last]
    push_cast
    split_ifs <;> omega

end Runs

/-- Once some days are exported and an estimate goes on from the last of them, no transfer has been
read twice. Those up to the last finalized epoch have all been read once, but for those of the last
epoch of these days, which neither the exports nor the estimate read. -/
theorem times_transfers_read {settings : Nat → Settings} {exports : Nat → List Event} {days : Nat}
    (exported : ∀ n < days, Runs (Transfers.stage (settings n) ⟨n⟩) (exports n) (.ok ()))
    {indices : List ValidatorIndex} {lastFinalized : Epoch} {trace : List Event}
    {point : IncomePoint} (begun : 225 * (days : Int) ≤ lastFinalized.number)
    (estimated : Runs (IncomeRequest.estimate indices ⟨days - 1⟩ lastFinalized) trace (.ok point))
    (kind : Transfer) (s : Slot) :
    timesRead kind s ((List.range days).flatMap exports ++ trace) =
      if 0 ≤ s.epoch.number ∧ s.epoch.number ≤ lastFinalized.number ∧
        s.epoch.number ≠ 225 * days - 1 then 1 else 0 := by
  -- The exports end with epoch 225 * days - 2, and the estimate begins with epoch 225 * days.
  rw [timesRead_append, times_exported_upTo exported, times_estimated estimated,
    Int.sub_add_cancel]
  split_ifs <;> omega

theorem first_day_runs : ∃ exported estimated point,
    Runs (Transfers.stage .standard ⟨0⟩) exported (.ok ()) ∧
      Runs (IncomeRequest.estimate [7] ⟨0⟩ ⟨300⟩) estimated (.ok point) := by
  have exported := runs_observe (Books.calm 0) (Transfers.stage .standard ⟨0⟩) (.opened .empty)
  have estimated := runs_observe (Books.calm 0) (IncomeRequest.estimate [7] ⟨0⟩ ⟨300⟩)
    (.opened .empty)
  have exportedWell : ((Transfers.stage .standard ⟨0⟩).observe (Books.calm 0)
      (.opened .empty)).2 = .ok () := by cbv
  have estimatedWell : ((IncomeRequest.estimate [7] ⟨0⟩ ⟨300⟩).observe (Books.calm 0)
      (.opened .empty)).2 = .ok ⟨⟨1⟩, 0, none⟩ := by cbv
  rw [exportedWell] at exported
  rw [estimatedWell] at estimated
  exact ⟨_, _, _, exported, estimated⟩

theorem times_transfers_read_first_day : ∃ exported estimated point,
    Runs (Transfers.stage .standard ⟨0⟩) exported (.ok ()) ∧
      Runs (IncomeRequest.estimate [7] ⟨0⟩ ⟨300⟩) estimated (.ok point) ∧
      ∀ kind (s : Slot), timesRead kind s (exported ++ estimated) =
        if 0 ≤ s.epoch.number ∧ s.epoch.number ≤ 300 ∧ s.epoch.number ≠ 224 then 1 else 0 := by
  obtain ⟨exported, estimated, point, first, second⟩ := first_day_runs
  refine ⟨exported, estimated, point, first, second, fun kind s => ?_⟩
  have only : ∀ n < 1, Runs (Transfers.stage .standard ⟨(n : Nat)⟩) exported (.ok ()) := by
    intro n below
    cases Nat.lt_one_iff.mp below
    exact first
  have begun : 225 * ((1 : Nat) : Int) ≤ (Epoch.mk 300).number := by decide
  simpa using times_transfers_read only begun second kind s

/-- The deposits and withdrawals of the last epoch of the day are read by nobody, though they are in
the balances that the estimate is made from. Those of the last finalized epoch are read, and are
not in them yet. -/
theorem last_epoch_unread : ∃ exported estimated point,
    Runs (Transfers.stage .standard ⟨0⟩) exported (.ok ()) ∧
      Runs (IncomeRequest.estimate [7] ⟨0⟩ ⟨300⟩) estimated (.ok point) ∧
      ∀ kind, timesRead kind ⟨224 * 32⟩ (exported ++ estimated) = 0 ∧
        timesRead kind ⟨300 * 32⟩ (exported ++ estimated) = 1 := by
  obtain ⟨exported, estimated, point, first, second⟩ := first_day_runs
  refine ⟨exported, estimated, point, first, second, fun kind => ?_⟩
  simp only [timesRead_append, times_exported first, times_estimated second]
  decide

end ValidatorDays
