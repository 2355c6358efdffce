import Mathlib
import ValidatorDays.Proofs.Income.Estimate
import ValidatorDays.Proofs.Status.Books
/-! The course of a history. It is read from the cache, and if nothing is found there it is put
together from what is stored, with an estimate if there is no upper day, and submitted. -/
namespace ValidatorDays

open Program

namespace IncomeRequest

variable {r : IncomeRequest} {answer : Except Report (Option Json)} {trace : List Event}
  {result : Outcome IncomeHistory} {stored points : IncomeHistory}

/-- What the cache has to give. A read that failed gives nothing, nor does a value that is not a
history. -/
def found : Except Report (Option Json) → Option IncomeHistory
  | .ok (some value) => (IncomeHistory.decode value).toOption
  | .ok none | .error _ => none

def afresh (r : IncomeRequest) : Program IncomeHistory :=
  r.storedHistory.bind fun history =>
    .ask (.cacheSubmit r.key (IncomeHistory.toJson history)) fun _ => .done history

theorem history_nobody (nobody : r.indices = []) : r.history = .done [] := if_pos nobody

theorem history_eq (asked : r.indices ≠ []) : r.history =
    .ask (.cacheRead r.key cacheAge) fun answer =>
      match found answer with
      | some history => .done history
      | none => r.afresh := by
  unfold history
  rw [if_neg asked]
  refine congrArg (Program.ask (.cacheRead r.key cacheAge)) (funext fun answer => ?_)
  match answer with
  | .ok (some value) =>
    cases decoded : IncomeHistory.decode value <;> simp only [found, decoded] <;> rfl
  | .ok none => rfl
  | .error _ => rfl

theorem runs_found (asked : r.indices ≠ []) (hit : found answer = some points) :
    Runs r.history (⟨.cacheRead r.key cacheAge, answer⟩ :: trace) result ↔
      trace = [] ∧ result = .ok points := by
  rw [history_eq asked, runs_ask]
  simp only [hit, runs_done]

theorem runs_missed (asked : r.indices ≠ []) (missed : found answer = none) :
    Runs r.history (⟨.cacheRead r.key cacheAge, answer⟩ :: trace) result ↔
      Runs r.afresh trace result := by
  rw [history_eq asked, runs_ask]
  simp only [missed]

theorem afresh_ok (run : Runs r.afresh trace (.ok points)) :
    ∃ own, trace = own ++ [⟨.cacheSubmit r.key points.toJson, ()⟩] ∧
      Runs r.storedHistory own (.ok points) := by
  obtain ⟨own, stored, rest, rfl, first, submitted⟩ := run.bind_ok
  cases submitted with
  | ask answer ends =>
    cases ends
    exact ⟨own, rfl, first⟩

theorem history_ok (asked : r.indices ≠ []) (run : Runs r.history trace (.ok points)) :
    ∃ answer rest, trace = ⟨.cacheRead r.key cacheAge, answer⟩ :: rest ∧
      (found answer = some points ∧ rest = [] ∨ found answer = none ∧
        ∃ own, rest = own ++ [⟨.cacheSubmit r.key points.toJson, ()⟩] ∧
          Runs r.storedHistory own (.ok points)) := by
  have begins : ∃ answer rest, trace = ⟨.cacheRead r.key cacheAge, answer⟩ :: rest := by
    rw [history_eq asked] at run
    cases run with
    | ask answer _ => exact ⟨answer, _, rfl⟩
  obtain ⟨answer, rest, rfl⟩ := begins
  refine ⟨answer, rest, rfl, ?_⟩
  cases given : found answer with
  | some history =>
    obtain ⟨rfl, same⟩ := (runs_found asked given).mp run
    cases same
    exact .inl ⟨rfl, rfl⟩
  | none => exact .inr ⟨rfl, afresh_ok ((runs_missed asked given).mp run)⟩

theorem lastDay_ok {base : Day} (run : Runs (lastDay stored) trace (.ok base)) :
    (∃ point, stored.getLast? = some point ∧ trace = [] ∧ base = point.day) ∨
      stored = [] ∧ ∃ last, trace = [⟨.query .lastExportedDay, .ok last⟩] ∧
        base = last.getD ⟨-1⟩ := by
  unfold lastDay at run
  cases ends : stored.getLast? with
  | some point =>
    rw [ends] at run
    cases run
    exact .inl ⟨point, rfl, rfl, rfl⟩
  | none =>
    rw [ends] at run
    obtain ⟨last, _, rfl, rest⟩ := run.read_ok
    cases rest
    exact .inr ⟨List.getLast?_eq_none_iff.mp ends, last, rfl, rfl⟩

theorem lastDay_asks {base : Day} (run : Runs (lastDay stored) trace (.ok base)) :
    ∀ e ∈ trace, e.1 = .query .lastExportedDay := by
  rcases lastDay_ok run with ⟨_, -, rfl, -⟩ | ⟨-, last, rfl, -⟩
  · exact List.forall_mem_nil _
  · exact List.forall_mem_singleton.mpr rfl

theorem storedHistory_ok (run : Runs r.storedHistory trace (.ok points)) :
    ∃ stored rest, trace =
        ⟨.query (.history (ascending r.indices) r.lower r.upperBound), .ok stored⟩ :: rest ∧
      (r.upper ≠ none ∧ rest = [] ∧ points = stored ∨
        r.upper = none ∧ ∃ based estimating base point, rest = based ++ estimating ∧
          Runs (lastDay stored) based (.ok base) ∧
          Runs (estimate (ascending r.indices) base r.lastFinalized) estimating (.ok point) ∧
          points = stored ++ [point]) := by
  obtain ⟨stored, rest, rfl, onward⟩ := run.read_ok
  refine ⟨stored, rest, rfl, ?_⟩
  cases upper : r.upper with
  | some day =>
    rw [upper] at onward
    cases onward
    exact .inl ⟨nofun, rfl, rfl⟩
  | none =>
    rw [upper] at onward
    obtain ⟨based, base, estimating, rfl, first, estimated⟩ := onward.bind_ok
    obtain ⟨own, point, _, rfl, made, ends⟩ := estimated.bind_ok
    cases ends
    exact .inr ⟨rfl, based, own, base, point, by simp, first, made, rfl⟩

theorem runs_steadily (asked : r.indices ≠ []) {answer : (r : Request) → r.Answer}
    (well : (r.afresh.observe (steady answer) ()).2 = .ok points) :
    Runs r.history (⟨.cacheRead r.key cacheAge, .ok none⟩ ::
      (r.afresh.observe (steady answer) ()).1) (.ok points) := by
  have run := runs_observe (steady answer) r.afresh ()
  rw [well] at run
  exact (runs_missed asked rfl).mpr run

def openEnded : IncomeRequest := ⟨1, [7], ⟨0⟩, none, ⟨500⟩⟩

def firstDay : IncomeHistory := [⟨⟨0⟩, 50, some 32000000050⟩]

/-- A store where these rows are, of days up to and after the last exported one, which is the
first. The validator has 32.0000001 ETH by now. Of two works the first goes on as long as it can. -/
def storing (rows : IncomeHistory) : (r : Request) → r.Answer
  | .query (.history ..) => .ok rows
  | .query .lastExportedDay => .ok (some .genesis)
  | .query (.endBalanceSum _ day) =>
    .ok ⟨((rows.find? (·.day = day)).bind IncomePoint.endBalance).getD 0⟩
  | .indexer (.balancesAt ..) => .ok [⟨7, ⟨32000000100⟩⟩]
  | .firstGoesOn => true
  | r => Books.calmAnswer 1 .empty r

theorem openEnded_runs : ∃ trace, Runs openEnded.history
      (⟨.cacheRead openEnded.key cacheAge, .ok none⟩ :: trace)
      (.ok (firstDay ++ [⟨⟨1⟩, 50, none⟩])) ∧
    ∀ e ∈ trace, e.2 = storing firstDay e.1 := by
  have well : (openEnded.afresh.observe (steady (storing firstDay)) ()).2 =
      .ok (firstDay ++ [⟨⟨1⟩, 50, none⟩]) := by cbv
  exact ⟨_, runs_steadily (List.cons_ne_nil _ _) well,
    steady_answers (storing firstDay) openEnded.afresh⟩

end IncomeRequest
end ValidatorDays
