import Mathlib.Algebra.Ring.Int.Defs
import ValidatorDays.Income.History
import ValidatorDays.Proofs.Work.Successes

namespace ValidatorDays

open Program

theorem Day.next_eq {day next : Day} (after : day.next = .ok next) :
    next = ⟨day.number + 1⟩ ∧ next.number ∈ Bounds.int32 := by
  obtain ⟨n, checked, same⟩ := bind_eq_ok.mp after
  obtain ⟨inside, rfl⟩ := Bounds.check_eq_ok_iff.mp checked
  cases same
  exact ⟨rfl, inside⟩

namespace Amount

variable {d : Denomination} {a b c : Amount d}

theorem add_eq (sum : a.add b = .ok c) : c.count = a.count + b.count ∧ c.count ∈ d.bounds := by
  unfold add at sum
  split at sum
  · cases sum
    exact ⟨rfl, ‹_›⟩
  · cases sum

theorem sub_eq (difference : a.sub b = .ok c) :
    c.count = a.count - b.count ∧ c.count ∈ d.bounds := by
  unfold sub at difference
  split at difference
  · cases difference
    exact ⟨rfl, ‹_›⟩
  · cases difference

theorem foldlM_add_eq {amounts : List (Amount d)} (total : amounts.foldlM add a = .ok c) :
    c.count = a.count + (amounts.map Amount.count).sum := by
  induction amounts generalizing a with
  | nil =>
    cases total
    simp
  | cons first rest ih =>
    rw [List.foldlM_cons] at total
    obtain ⟨next, added, onward⟩ := bind_eq_ok.mp total
    rw [ih onward, (add_eq added).1, List.map_cons, List.sum_cons, Int.add_assoc]

theorem sum_eq {amounts : List (Amount d)} (total : sum amounts = .ok c) :
    c.count = (amounts.map Amount.count).sum := by
  simpa [zero] using foldlM_add_eq total

end Amount

/-- The point is an estimate for the day after `base`, as it can be stored and shown. -/
structure IncomePoint.Estimates (p : IncomePoint) (base : Day) : Prop where
  next : p.day = ⟨base.number + 1⟩
  day : p.day.number ∈ Bounds.int32
  rewards : p.rewards ∈ Bounds.int64
  endBalance : p.endBalance = none

namespace IncomeRequest

variable {indices : List ValidatorIndex} {base : Day} {lastFinalized : Epoch}
  {trace : List Event} {point : IncomePoint}

def since (base : Day) (lastFinalized : Epoch) : Option EpochRange :=
  if Epoch.mk ((base.number + 1) * epochsPerDay) ≤ lastFinalized then
    some ⟨⟨(base.number + 1) * epochsPerDay⟩, lastFinalized⟩
  else none

section Readings

variable {moved : Option EpochRange} {balances : List ValidatorBalance}
  {lastBalance deposits withdrawals : Gwei}

theorem depositedSince_ok (run : Runs (depositedSince indices moved) trace (.ok deposits)) :
    trace = moved.toList.map fun range => ⟨.query (.depositsSum indices range), .ok deposits⟩ := by
  cases moved with
  | none =>
    cases run
    rfl
  | some range => exact run.mapFailure_ok.query_ok

theorem withdrawnSince_ok (run : Runs (withdrawnSince indices moved) trace (.ok withdrawals)) :
    (moved = none ∧ trace = []) ∨ ∃ range first stop, moved = some range ∧
      range.slots = .ok (first, stop) ∧
      trace = [⟨.query (.withdrawalsSum indices first stop), .ok withdrawals⟩] := by
  cases moved with
  | none =>
    cases run
    exact .inl ⟨rfl, rfl⟩
  | some range =>
    obtain ⟨⟨first, stop⟩, slots, read⟩ := run.checked_ok
    exact .inr ⟨range, first, stop, rfl, slots, read.mapFailure_ok.query_ok⟩

theorem readings_ok (run : Runs (readings indices base lastFinalized moved) trace
      (.ok (balances, lastBalance, deposits, withdrawals))) :
    ∃ deposited withdrawn moves rest,
      Runs (depositedSince indices moved) deposited (.ok deposits) ∧
      Runs (withdrawnSince indices moved) withdrawn (.ok withdrawals) ∧
      Woven deposited withdrawn moves ∧
      Woven [⟨.query (.endBalanceSum indices base), .ok lastBalance⟩] moves rest ∧
      Woven [⟨.indexer (.balancesAt indices lastFinalized), .ok balances⟩] rest trace := by
  obtain ⟨first, rest, asking, others, woven⟩ := run.both_ok
  obtain ⟨second, moves, reading, moving, wovenRest⟩ := others.both_ok
  obtain ⟨deposited, withdrawn, depositing, withdrawing, wovenMoves⟩ := moving.both_ok
  cases asking.mapFailure_ok.indexer_ok
  cases reading.mapFailure_ok.query_ok
  exact ⟨deposited, withdrawn, moves, rest, depositing, withdrawing, wovenMoves, wovenRest, woven⟩

end Readings

theorem estimate_ok (run : Runs (estimate indices base lastFinalized) trace (.ok point)) :
    ∃ balances lastBalance deposits withdrawals,
      Runs (readings indices base lastFinalized (since base lastFinalized)) trace
        (.ok (balances, lastBalance, deposits, withdrawals)) ∧
      point.rewards = (balances.map (·.balance.count)).sum - lastBalance.count -
        deposits.count + withdrawals.count ∧ point.Estimates base := by
  obtain ⟨day, next, dated⟩ := run.checked_ok
  obtain ⟨rfl, valid⟩ := Day.next_eq next
  obtain ⟨reads, ⟨balances, lastBalance, deposits, withdrawals⟩, _, rfl, read, afterReads⟩ :=
    dated.bind_ok
  obtain ⟨total, totaled, summed⟩ := afterReads.checked_ok
  obtain ⟨gained, less, withoutBase⟩ := summed.checked_ok
  obtain ⟨earned, lessDeposits, withoutDeposits⟩ := withoutBase.checked_ok
  obtain ⟨rewards, withdrawn, afterAll⟩ := withoutDeposits.checked_ok
  cases afterAll
  have sum := Amount.sum_eq totaled
  rw [List.map_map] at sum
  refine ⟨balances, lastBalance, deposits, withdrawals, ?_, ?_, ?_⟩
  · rw [List.append_nil]
    exact read
  · change rewards.count = _
    rw [(Amount.add_eq withdrawn).1, (Amount.sub_eq lessDeposits).1, (Amount.sub_eq less).1, sum]
    rfl
  · exact ⟨rfl, valid, (Amount.add_eq withdrawn).2, rfl⟩

inductive EstimateAsks (indices : List ValidatorIndex) (base : Day) : Request → Prop where
  | balances (epoch : Epoch) : EstimateAsks indices base (.indexer (.balancesAt indices epoch))
  | base : EstimateAsks indices base (.query (.endBalanceSum indices base))
  | deposits (range : EpochRange) : EstimateAsks indices base (.query (.depositsSum indices range))
  | withdrawals (first stop : Slot) :
    EstimateAsks indices base (.query (.withdrawalsSum indices first stop))
  | turns : EstimateAsks indices base .firstGoesOn

theorem readings_asks (indices : List ValidatorIndex) (base : Day) (lastFinalized : Epoch)
    (moved : Option EpochRange) :
    (readings indices base lastFinalized moved).Only (EstimateAsks indices base) := by
  apply Only.both (.mapFailure (.ask (.balances lastFinalized) .ofReport)) _ .turns
  apply Only.both (.read .base) _ .turns
  cases moved with
  | none => exact .done _
  | some range =>
    have withdrawn : (withdrawnSince indices (some range)).Only (EstimateAsks indices base) :=
      .bind (.outcome _) fun (first, stop) => .read (.withdrawals first stop)
    exact Only.both (.read (.deposits range)) withdrawn .turns

theorem estimate_asks (run : Runs (estimate indices base lastFinalized) trace (.ok point)) :
    ∀ e ∈ trace, EstimateAsks indices base e.1 := by
  obtain ⟨balances, lastBalance, deposits, withdrawals, read, -⟩ := estimate_ok run
  exact (readings_asks indices base lastFinalized _).asked read

end IncomeRequest
end ValidatorDays
