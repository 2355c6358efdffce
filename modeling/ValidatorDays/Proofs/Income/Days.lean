import ValidatorDays.Proofs.Income.Course
/-! The days of a history. An estimate is for a day after all stored ones, so the days ascend. But
where no row is stored it is for the day after the last exported one, and nothing keeps that from
being a day before the lower one. -/
namespace ValidatorDays

open Program

namespace IncomeHistory

def Ascending (history : IncomeHistory) : Prop := history.Pairwise fun p q => p.day < q.day

variable {history : IncomeHistory} {point : IncomePoint}

theorem Ascending.le_last (ascends : history.Ascending) {last : IncomePoint}
    (ends : history.getLast? = some last) : ∀ p ∈ history, p.day ≤ last.day := by
  obtain ⟨others, rfl⟩ := List.getLast?_eq_some_iff.mp ends
  obtain ⟨-, -, before⟩ := List.pairwise_append.mp ascends
  intro p member
  rcases List.mem_append.mp member with early | late
  · exact Int.le_of_lt (before p early last (List.mem_singleton_self _))
  · cases List.mem_singleton.mp late
    exact Int.le_refl _

theorem Ascending.concat (ascends : history.Ascending)
    (after : ∀ last, history.getLast? = some last → last.day < point.day) :
    Ascending (history ++ [point]) := by
  refine List.pairwise_append.mpr ⟨ascends, List.pairwise_singleton _ _, fun p member q same => ?_⟩
  cases List.mem_singleton.mp same
  obtain ⟨last, ends⟩ := Option.isSome_iff_exists.mp
    (List.getLast?_isSome.mpr (List.ne_nil_of_mem member))
  have upTo : p.day.number ≤ last.day.number := ascends.le_last ends p member
  exact Int.lt_of_le_of_lt upTo (after last ends)

end IncomeHistory

namespace IncomeRequest

variable {r : IncomeRequest} {answer : Except Report (Option Json)} {trace : List Event}
  {stored points : IncomeHistory}

/-- The rows are of days that were asked for, in order, and of no day twice. -/
structure Within (r : IncomeRequest) (stored : IncomeHistory) : Prop where
  ascending : stored.Ascending
  lower : ∀ row ∈ stored, r.lower ≤ row.day
  upper : ∀ row ∈ stored, row.day ≤ r.upperBound

theorem Within.nil (r : IncomeRequest) : r.Within [] := ⟨.nil, nofun, nofun⟩

/-- Where a history ends: with the stored rows if there is an upper day, or else with an estimate.
That is for the day after the last row, or else for the day after the last exported one. -/
inductive HistoryEnds (r : IncomeRequest) (trace : List Event) (stored points : IncomeHistory) :
    Prop where
  | bounded (upper : r.upper ≠ none)
    (unasked : ∀ last, ⟨.query .lastExportedDay, .ok last⟩ ∉ trace) (same : points = stored)
  | stored (unbounded : r.upper = none)
    (unasked : ∀ last, ⟨.query .lastExportedDay, .ok last⟩ ∉ trace) (last point : IncomePoint)
    (row : stored.getLast? = some last) (next : point.day = ⟨last.day.number + 1⟩)
    (same : points = stored ++ [point])
  | exported (unbounded : r.upper = none) (nothing : stored = []) (last : Option Day)
    (asked : ∀ other, ⟨.query .lastExportedDay, .ok other⟩ ∈ trace ↔ other = last)
    (point : IncomePoint) (next : point.day = ⟨(last.getD ⟨-1⟩).number + 1⟩)
    (same : points = [point])

theorem runs_ends (missed : found answer = none)
    (run : Runs r.history (⟨.cacheRead r.key cacheAge, answer⟩ :: trace) (.ok points)) :
    ∃ stored, (∀ other, ⟨.query (.history (ascending r.indices) r.lower r.upperBound), .ok other⟩ ∈
      trace ↔ other = stored) ∧ HistoryEnds r trace stored points := by
  have asked : r.indices ≠ [] := by
    intro nobody
    rw [history_nobody nobody] at run
    cases run
  obtain ⟨own, rfl, course⟩ := afresh_ok ((runs_missed asked missed).mp run)
  obtain ⟨stored, rest, rfl, ⟨bounded, rfl, rfl⟩ | ⟨unbounded, onward⟩⟩ := storedHistory_ok course
  · exact ⟨points, by simp [eq_comm], .bounded bounded (by simp) rfl⟩
  obtain ⟨based, estimating, base, point, rfl, chosen, estimated, rfl⟩ := onward
  obtain ⟨_, _, _, _, -, -, estimates⟩ := estimate_ok estimated
  have silent {q : Query} (other : ¬ EstimateAsks (ascending r.indices) base (.query q))
      (answer : (Request.query q).Answer) : ⟨.query q, answer⟩ ∉ estimating :=
    fun member => other (estimate_asks estimated _ member)
  have noHistory := silent (q := .history (ascending r.indices) r.lower r.upperBound) nofun
  have noDay := silent (q := .lastExportedDay) nofun
  refine ⟨stored, ?once, ?ends⟩
  case once =>
    have notBefore : ∀ other, ⟨.query (.history (ascending r.indices) r.lower r.upperBound),
        .ok other⟩ ∉ based := by
      intro other member
      cases lastDay_asks chosen _ member
    intro other
    simp [noHistory, notBefore, eq_comm]
  case ends =>
    rcases lastDay_ok chosen with ⟨row, ends, rfl, rfl⟩ | ⟨nothing, last, rfl, rfl⟩
    · exact .stored unbounded (by simp [noDay]) row point ends estimates.next rfl
    · exact .exported unbounded nothing last (by simp [noDay, eq_comm]) point estimates.next
        (by rw [nothing]; rfl)

namespace HistoryEnds

variable (ends : HistoryEnds r trace stored points)
include ends

theorem asked_iff : (∃ last, ⟨.query .lastExportedDay, .ok last⟩ ∈ trace) ↔
    r.upper = none ∧ stored = [] := by
  cases ends with
  | bounded upper unasked =>
    exact iff_of_false (fun ⟨last, asked⟩ => unasked last asked) fun both => upper both.1
  | stored _ unasked last point row =>
    refine iff_of_false (fun ⟨last, asked⟩ => unasked last asked) fun ⟨_, nothing⟩ => ?_
    rw [nothing] at row
    cases row
  | exported unbounded nothing last asked =>
    exact iff_of_true ⟨last, (asked last).mpr rfl⟩ ⟨unbounded, nothing⟩

variable (within : r.Within stored)
include within

theorem ascends : points.Ascending := by
  cases ends with
  | bounded _ _ same => exact same ▸ within.ascending
  | stored _ _ last point row next same =>
    rw [same]
    refine within.ascending.concat fun other rowToo => ?_
    cases row.symm.trans rowToo
    rw [next]
    exact Int.lt_succ last.day.number
  | exported _ _ _ _ point _ same => exact same ▸ List.pairwise_singleton _ _

theorem le_upper {upper : Day} (given : r.upper = some upper) : ∀ p ∈ points, p.day ≤ upper := by
  cases ends with
  | bounded _ _ same =>
    intro p member
    have upTo := within.upper p (same ▸ member)
    rw [upperBound, given] at upTo
    exact upTo
  | stored unbounded => cases unbounded.symm.trans given
  | exported unbounded => cases unbounded.symm.trans given

theorem lower_iff : (∀ p ∈ points, r.lower ≤ p.day) ↔
    ∀ last, ⟨.query .lastExportedDay, .ok last⟩ ∈ trace →
      r.lower.number ≤ (last.getD ⟨-1⟩).number + 1 := by
  cases ends with
  | bounded _ unasked same =>
    rw [same]
    exact iff_of_true within.lower fun last asked => absurd asked (unasked last)
  | stored _ unasked last point row next same =>
    rw [same]
    refine iff_of_true (fun p member => ?_) fun last asked => absurd asked (unasked last)
    rcases List.mem_append.mp member with early | late
    · exact within.lower p early
    · cases List.mem_singleton.mp late
      have lower := within.lower last (List.mem_of_getLast? row)
      rw [next]
      exact Int.le_add_one lower
  | exported _ _ last asked point next same =>
    simp only [same, List.forall_mem_singleton, asked, forall_eq, next]
    exact Iff.rfl

end HistoryEnds

/-- The days of a history ascend, up to the upper day if there is one. None of them is before the
lower day just if that is no later than the day after the last exported one, wherever this is asked
for. It is asked for just if there is no upper day and no row is stored. -/
theorem days_within_iff (missed : found answer = none)
    (run : Runs r.history (⟨.cacheRead r.key cacheAge, answer⟩ :: trace) (.ok points))
    (rows : ∀ stored, ⟨.query (.history (ascending r.indices) r.lower r.upperBound), .ok stored⟩ ∈
      trace → r.Within stored) :
    points.Ascending ∧ (∀ upper, r.upper = some upper → ∀ p ∈ points, p.day ≤ upper) ∧
      ((∀ p ∈ points, r.lower ≤ p.day) ↔
        ∀ last, ⟨.query .lastExportedDay, .ok last⟩ ∈ trace →
          r.lower.number ≤ (last.getD ⟨-1⟩).number + 1) ∧
      ((∃ last, ⟨.query .lastExportedDay, .ok last⟩ ∈ trace) ↔ r.upper = none ∧
        ⟨.query (.history (ascending r.indices) r.lower r.upperBound), .ok []⟩ ∈ trace) := by
  obtain ⟨stored, once, ends⟩ := runs_ends missed run
  have within := rows stored ((once stored).mpr rfl)
  refine ⟨ends.ascends within, fun upper => ends.le_upper within, ends.lower_iff within, ?_⟩
  rw [ends.asked_iff, once, eq_comm (a := [])]

theorem days_within_iff_genesis :
    ∃ trace, Runs openEnded.history trace (.ok (firstDay ++ [⟨⟨1⟩, 50, none⟩])) ∧
      IncomeHistory.Ascending (firstDay ++ [⟨⟨1⟩, 50, none⟩]) ∧
      ∀ p ∈ firstDay ++ [⟨⟨1⟩, 50, none⟩], openEnded.lower ≤ p.day := by
  obtain ⟨trace, run, steadily⟩ := openEnded_runs
  have within : openEnded.Within firstDay := by
    refine ⟨List.pairwise_singleton _ _, ?_, ?_⟩
    all_goals
      rw [firstDay, List.forall_mem_singleton]
      decide
  obtain ⟨ascends, -, lower, -⟩ := days_within_iff rfl run fun stored member => by
    cases steadily _ member
    exact within
  refine ⟨_, run, ascends, lower.mpr fun last member => ?_⟩
  cases steadily _ member
  decide

def late : IncomeRequest := { openEnded with lower := ⟨5⟩ }

def storingEarlier : (r : Request) → r.Answer
  | .query (.history ..) => .ok []
  | r => storing firstDay r

/-- Only the first day is exported. The estimate is for the second, though it is asked for days from
the sixth on. -/
theorem days_before_lower : ∃ trace, Runs late.history trace (.ok [⟨⟨1⟩, 50, none⟩]) ∧
    ⟨.query (.history [7] late.lower late.upperBound), .ok []⟩ ∈ trace ∧
    late.Within [] ∧ ¬ late.lower ≤ ⟨1⟩ := by
  have well : (late.afresh.observe (steady storingEarlier) ()).2 = .ok [⟨⟨1⟩, 50, none⟩] := by cbv
  exact ⟨_, runs_steadily (List.cons_ne_nil _ _) well, .tail _ (.head _), .nil late, by decide⟩

end IncomeRequest
end ValidatorDays
