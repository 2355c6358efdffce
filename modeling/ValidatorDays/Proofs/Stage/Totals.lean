import Mathlib.Data.List.Induction
import ValidatorDays.Proofs.Stage.Feasible
import ValidatorDays.Proofs.Stage.Soundness
/-! What totals are built on. A total adds to the total of the day before, but what is asked for is
the income of that day. So there is one state of the table in which totals are built on nothing,
and as long as no export begins in it every day with totals follows another. -/
namespace ValidatorDays

open Program

/-- The request issues the statement, and does not merely ask after it. -/
def Request.Issues (r : Request) (w : Write) : Prop := r = .write w ∨ r = .startWrite w

theorem Request.Issues.mem_writes {r : Request} {w : Write} (issues : r.Issues w) :
    w ∈ r.writes := by
  rcases issues with rfl | rfl <;> exact List.mem_singleton_self w

/-- An export on its way, from a table that it has to itself. -/
structure Course (day : Day) (t : StatusTable) (seen : List Event) : Prop where
  informed : Informed day ((Books.opened t).afterAll seen).table seen
  grown : t.GrowsInto ((Books.opened t).afterAll seen).table
  others : ∀ d, d ≠ day → ((Books.opened t).afterAll seen).table d = t d
  sound : t.Sound → ((Books.opened t).afterAll seen).table.Sound
  denied : ∀ c, Denied seen (day, c) → ¬ t.Exported day c

theorem course_nil (day : Day) (t : StatusTable) : Course day t [] := by
  constructor
  · exact informed_nil day t
  · exact .refl t
  · exact fun _ _ => rfl
  · exact id
  · rintro c ⟨row, member, -⟩
    cases member

theorem Course.event {day : Day} {t : StatusTable} {seen : List Event} {e : Event}
    (course : Course day t seen) (justified : Justified day seen e.1)
    (answers : ((Books.opened t).afterAll seen).Answers e) : Course day t (seen ++ [e]) := by
  have pending := (Books.opened t).afterAll_pending seen
  have further := (Books.opened t).afterAll_append seen [e]
  obtain ⟨informed, grown, others, sound, denied⟩ := course
  generalize (Books.opened t).afterAll seen = b at *
  obtain ⟨u, tx⟩ := b
  obtain rfl : tx = openAfter seen := pending
  have shows := informed.shows justified
  constructor
  · rw [further]
    exact informed.event justified answers
  · rw [further]
    exact grown.trans (u.writeAll_grows _)
  · intro d other
    rw [further]
    exact (u.writeAll_other (fun w member => (shows w member).1) other).trans (others d other)
  · intro start
    rw [further]
    exact (sound start).writeAll fun w member => (shows w member).2
  · rintro c ⟨row, member, lacks⟩ before
    rcases List.mem_append.mp member with earlier | now
    · exact denied c ⟨row, earlier, lacks⟩ before
    · cases List.mem_singleton.mp now
      have viewed := (grown.trans (u.writeAll_grows ((openAfter seen).getD []))).1 day c before
      have same : row = (Books.mk u (openAfter seen)).view day := answers
      rw [same] at lacks
      exact Bool.noConfusion (lacks.symm.trans viewed)

section Attempt

variable {settings : Settings} {day : Day} {t u : StatusTable} {trace : List Event}
  {result : Outcome DayStatus}

theorem Attempt.course (attempt : Attempt settings day t trace result u) (seen rest : List Event)
    (split : trace = seen ++ rest) : Course day t seen := by
  induction seen using List.reverseRecOn generalizing rest with
  | nil => exact course_nil day t
  | append_singleton seen e ih =>
    rw [List.append_assoc] at split
    have run := attempt.runs
    have agrees := attempt.agrees
    rw [split] at run agrees
    have justified := (exportDay_keeps settings day).asked run
    exact (ih _ split).event justified ((Books.agrees_append ..).mp agrees).2.1

theorem Attempt.at_end (attempt : Attempt settings day t trace result u) :
    t.GrowsInto u ∧ (∀ d, d ≠ day → u d = t d) ∧ (t.Sound → u.Sound) := by
  have course := attempt.course trace [] (List.append_nil _).symm
  have leaves := attempt.leaves
  subst leaves
  exact ⟨course.grown, course.others, course.sound⟩

theorem Attempt.issues_totals (attempt : Attempt settings day t trace result u)
    {before after : List Event} {e : Event} (split : trace = before ++ e :: after) {d : Day}
    {range : IndexRange} (issues : e.1.Issues (.cumulativeTotals d range)) :
    d = day ∧ ¬ t.Exported day .totalPerformance ∧
      ((Books.opened t).afterAll before).table.Meets day .totalPerformance := by
  have course := attempt.course before (e :: after) split
  have run := attempt.runs
  rw [split] at run
  have justified := (exportDay_keeps settings day).asked run
  rw [List.nil_append] at justified
  obtain ⟨rfl, met, denied⟩ := justified _ issues.mem_writes
  exact ⟨rfl, course.denied _ denied, course.informed.meets met⟩

end Attempt

namespace StatusTable

/-- The table after some exports, one after the other and each begun on a table that `begins`
allows. -/
inductive Reached (begins : StatusTable → Day → Prop) : StatusTable → Prop where
  | empty : Reached begins empty
  | attempt {settings : Settings} {day : Day} {t u : StatusTable} {trace : List Event}
      {result : Outcome DayStatus} (reached : Reached begins t) (allowed : begins t day)
      (attempt : Attempt settings day t trace result u) : Reached begins u

theorem Reached.mono {begins allows : StatusTable → Day → Prop} {t : StatusTable}
    (reached : Reached begins t) (weaker : ∀ t day, begins t day → allows t day) :
    Reached allows t := by
  induction reached with
  | empty => exact .empty
  | attempt _ allowed attempt ih => exact .attempt ih (weaker _ _ allowed) attempt

/-- The day before has its income but not its totals, and the day itself has no totals either. -/
def Unfounded (t : StatusTable) (day : Day) : Prop :=
  Day.genesis < day ∧ t.Exported ⟨day.number - 1⟩ .consensusRewards ∧
    t.Exported ⟨day.number - 1⟩ .executionRewards ∧
    ¬ t.Exported ⟨day.number - 1⟩ .totalPerformance ∧ ¬ t.Exported day .totalPerformance

variable {begins : StatusTable → Day → Prop} {t : StatusTable} {day : Day}

theorem Reached.sound (reached : t.Reached begins) : t.Sound := by
  induction reached with
  | empty => exact sound_empty
  | attempt _ _ attempt ih => exact attempt.at_end.2.2 ih

theorem exported_congr {u : StatusTable} {d : Day} (same : u d = t d) (c : Category) :
    u.Exported d c ↔ t.Exported d c := by
  rw [Exported, Exported, status_congr same]

theorem before_ne (day : Day) : (⟨day.number - 1⟩ : Day) ≠ day := by
  intro same
  have := congrArg Day.number same
  simp only at this
  omega

theorem unfounded_of_totals {u : StatusTable} (alike : ∀ d, d ≠ day → u d = t d)
    (meets : u.Meets day .totalPerformance) (later : Day.genesis < day)
    (lacks : ¬ t.Exported day .totalPerformance)
    (lacksBefore : ¬ t.Exported ⟨day.number - 1⟩ .totalPerformance) : t.Unfounded day := by
  have same := alike _ (before_ne day)
  obtain ⟨consensus, execution⟩ := meets.totalPerformance.2.2 later
  rw [exported_congr same] at consensus execution
  exact ⟨later, consensus, execution, lacksBefore, lacks⟩

theorem Reached.consecutive (reached : t.Reached fun t day => ¬ t.Unfounded day)
    (later : Day.genesis < day) (exported : t.Exported day .totalPerformance) :
    t.Exported ⟨day.number - 1⟩ .totalPerformance := by
  induction reached with
  | empty => cases exported
  | @attempt settings day' t u trace result reached allowed attempt ih =>
    obtain ⟨grows, others, sound⟩ := attempt.at_end
    by_cases before : t.Exported day .totalPerformance
    · exact grows.1 _ _ (ih before)
    · by_cases own : day = day'
      · subst own
        have meets := (sound reached.sound).required _ _ exported
        by_contra lacks
        have lacksBefore := fun there => lacks (grows.1 ⟨day.number - 1⟩ .totalPerformance there)
        exact allowed (unfounded_of_totals others meets later before lacksBefore)
      · rw [exported_congr (others day own)] at exported
        exact absurd exported before

end StatusTable

section Attempt

variable {settings : Settings} {day : Day} {t u : StatusTable} {trace : List Event}
  {result : Outcome DayStatus}

theorem Attempt.issues_founded (attempt : Attempt settings day t trace result u)
    (founded : ¬ t.Unfounded day) {before after : List Event} {e : Event}
    (split : trace = before ++ e :: after) {d : Day} {range : IndexRange}
    (issues : e.1.Issues (.cumulativeTotals d range)) (later : Day.genesis < d) :
    ((Books.opened t).afterAll before).table.Exported ⟨d.number - 1⟩ .totalPerformance := by
  have course := attempt.course before (e :: after) split
  obtain ⟨rfl, lacks, meets⟩ := attempt.issues_totals split issues
  by_contra lacksBefore
  rw [StatusTable.exported_congr (course.others _ (StatusTable.before_ne d))] at lacksBefore
  exact founded (StatusTable.unfounded_of_totals course.others meets later lacks lacksBefore)

theorem StatusTable.Unfounded.issues (unfounded : t.Unfounded day) (sound : t.Sound)
    (valid : day.number ∈ Bounds.int32) : ∃ trace result u before e after range,
      Attempt .oneWindow day t trace result u ∧ trace = before ++ e :: after ∧
        e.1.Issues (.cumulativeTotals day range) ∧
          ¬ ((Books.opened t).afterAll before).table.Exported ⟨day.number - 1⟩
            .totalPerformance := by
  obtain ⟨later, consensus, execution, lacksBefore, lacks⟩ := unfounded
  have positive : 0 < day.number := later
  have notBefore : Day.genesis ≤ day := Int.le_of_lt positive
  have stored := (sound.required _ _ consensus).consensusRewards
  have supports : t.Supports day := by
    refine StatusTable.supports_of_previous notBefore fun _ => ?_
    simp only [List.forall_mem_cons]
    exact ⟨stored.1, stored.2.1, consensus, execution, by simp⟩
  obtain ⟨trace, result, u, attempt, range, member⟩ :=
    attempt_may_issue valid notBefore supports lacks
  obtain ⟨before, after, split⟩ := List.append_of_mem member
  have course := attempt.course before _ split
  rw [← StatusTable.exported_congr (course.others _ (StatusTable.before_ne day))] at lacksBefore
  exact ⟨trace, result, u, before, _, after, range, attempt, split, .inr rfl, lacksBefore⟩

end Attempt

/-- Whether every run for a day issues totals only on those of the day before depends on where it
begins, and on nothing else: the one state in which it may do otherwise is that in which the day
before has its income but not its totals. Where no run begins in such a state, every day with totals
comes after another, down to genesis. -/
theorem totals_founded_iff {t : StatusTable} (reached : t.Reached fun _ _ => True) {day : Day}
    (later : Day.genesis < day) (valid : day.number ∈ Bounds.int32) :
    ((∀ settings trace result u, Attempt settings day t trace result u →
        ∀ before e after, trace = before ++ e :: after →
          ∀ d range, e.1.Issues (.cumulativeTotals d range) → Day.genesis < d →
            ((Books.opened t).afterAll before).table.Exported ⟨d.number - 1⟩ .totalPerformance) ↔
      ¬ t.Unfounded day) ∧
    (t.Reached (fun t day => ¬ t.Unfounded day) → t.Exported day .totalPerformance →
      t.Exported ⟨day.number - 1⟩ .totalPerformance) := by
  refine ⟨⟨fun always unfounded => ?_, fun founded => ?_⟩, fun founded => founded.consecutive later⟩
  · obtain ⟨trace, result, u, before, e, after, range, attempt, split, issues, lacks⟩ :=
      unfounded.issues reached.sound valid
    exact lacks (always _ _ _ _ attempt _ _ _ split day range issues later)
  · intro settings trace result u attempt before e after split d range issues
    exact attempt.issues_founded founded split issues

theorem totals_founded_iff_calm : ∃ t u : StatusTable, t.Reached (fun t day => ¬ t.Unfounded day) ∧
    (∃ trace result, Attempt .oneWindow ⟨1⟩ t trace result u) ∧
    (∀ settings trace result v, Attempt settings ⟨1⟩ t trace result v →
      ∀ before e after, trace = before ++ e :: after →
        ∀ d range, e.1.Issues (.cumulativeTotals d range) → Day.genesis < d →
          ((Books.opened t).afterAll before).table.Exported ⟨d.number - 1⟩ .totalPerformance) ∧
    u.Exported ⟨1⟩ .totalPerformance ∧ u.Exported ⟨0⟩ .totalPerformance := by
  have calm := Books.calm_honest 1
  obtain ⟨_, _, first⟩ := attempt_given calm .oneWindow ⟨0⟩ .empty
  obtain ⟨trace, result, second⟩ :=
    attempt_given calm .oneWindow ⟨1⟩ (StatusTable.empty.given _ _ ⟨0⟩)
  have before : (StatusTable.empty.given (Books.calmAnswer 1) .oneWindow ⟨0⟩).Exported ⟨0⟩
      .totalPerformance := by
    unfold StatusTable.Exported
    cbv
  have totals : ((StatusTable.empty.given (Books.calmAnswer 1) .oneWindow ⟨0⟩).given
      (Books.calmAnswer 1) .oneWindow ⟨1⟩).Exported ⟨1⟩ .totalPerformance := by
    unfold StatusTable.Exported
    cbv
  have notYet : ¬ StatusTable.empty.Unfounded ⟨0⟩ :=
    fun unfounded => absurd unfounded.1 (by decide)
  have founded := fun unfounded : StatusTable.Unfounded _ ⟨1⟩ => unfounded.2.2.2.1 before
  have untouched : StatusTable.empty.Reached fun t day => ¬ t.Unfounded day := .empty
  have reached := untouched.attempt notYet first
  have next := reached.attempt founded second
  have later : Day.genesis < ⟨1⟩ := by decide
  have valid : (1 : Int) ∈ Bounds.int32 := by decide
  have always := (totals_founded_iff (reached.mono fun _ _ _ => trivial) later valid).1.mpr founded
  have follows := (totals_founded_iff (next.mono fun _ _ _ => trivial) later valid).2 next totals
  exact ⟨_, _, reached, ⟨trace, result, second⟩, always, totals, follows⟩

def Books.unrankedAnswer (validators : Int) (t : StatusTable) : (r : Request) → r.Answer
  | .write .rankPerformance => .error .noConnection
  | r => Books.calmAnswer validators t r

theorem Books.unranked_honest (validators : Int) : Honest (unrankedAnswer validators) := by
  intro b r
  unfold unrankedAnswer
  split
  · trivial
  · exact calm_honest validators b _

/-- What the first day leaves when all goes well on it but for the ranks. -/
def StatusTable.unranked : StatusTable :=
  StatusTable.empty.given (Books.unrankedAnswer 1) .oneWindow ⟨0⟩

def Program.Event.startsTotals (day : Day) : Event → Bool
  | ⟨.startWrite (.cumulativeTotals other _), _⟩ => decide (other = day)
  | _ => false

theorem Program.Event.issues_of_startsTotals {day : Day} {e : Event}
    (starts : e.startsTotals day = true) : ∃ range, e.1.Issues (.cumulativeTotals day range) := by
  unfold startsTotals at starts
  split at starts
  · cases of_decide_eq_true starts
    exact ⟨_, .inr rfl⟩
  · cases starts

/-- On the first day the ranks fail, and with them the totals. The day after is exported all the
same, and its totals are built on none. -/
theorem totals_unfounded : StatusTable.unranked.Reached (fun _ _ => True) ∧
    ∃ trace result u before e after range,
      Attempt .oneWindow ⟨1⟩ .unranked trace result u ∧ trace = before ++ e :: after ∧
      e.1.Issues (.cumulativeTotals ⟨1⟩ range) ∧
      ¬ ((Books.opened .unranked).afterAll before).table.Exported ⟨0⟩ .totalPerformance ∧
      u.Exported ⟨1⟩ .totalPerformance ∧ ¬ u.Exported ⟨0⟩ .totalPerformance := by
  obtain ⟨_, _, first⟩ := attempt_given (Books.unranked_honest 1) .oneWindow ⟨0⟩ .empty
  have untouched : StatusTable.empty.Reached fun _ _ => True := .empty
  refine ⟨untouched.attempt trivial first, ?_⟩
  have lacks : (StatusTable.unranked.status ⟨0⟩).exported .totalPerformance = false := by
    cbv
  have totals : (StatusTable.unranked.given (Books.calmAnswer 1) .oneWindow ⟨1⟩).Exported ⟨1⟩
      .totalPerformance := by
    unfold StatusTable.Exported
    cbv
  have issued : ((exportDay .oneWindow ⟨1⟩).observe (Books.calm 1) (.opened .unranked)).1.any
      (Event.startsTotals ⟨1⟩) = true := by
    cbv
  have second : Attempt .oneWindow ⟨1⟩ .unranked ((exportDay .oneWindow ⟨1⟩).observe (Books.calm 1)
      (.opened .unranked)).1 _ (StatusTable.unranked.given (Books.calmAnswer 1) .oneWindow ⟨1⟩) :=
    ⟨runs_observe .., (Books.calm_honest 1).agrees .., rfl⟩
  generalize ((exportDay .oneWindow ⟨1⟩).observe (Books.calm 1) (.opened .unranked)).1 = trace at *
  obtain ⟨e, member, isTotals⟩ := List.any_eq_true.mp issued
  obtain ⟨before, after, split⟩ := List.append_of_mem member
  have course := second.course before _ split
  have other : (⟨0⟩ : Day) ≠ ⟨1⟩ := by decide
  have unset (u : StatusTable) (same : u ⟨0⟩ = StatusTable.unranked ⟨0⟩) :
      ¬ u.Exported ⟨0⟩ .totalPerformance := by
    rw [StatusTable.exported_congr same, StatusTable.Exported, lacks]
    exact Bool.false_ne_true
  obtain ⟨range, issues⟩ := Event.issues_of_startsTotals isTotals
  exact ⟨trace, _, _, before, e, after, range, second, split, issues,
    unset _ (course.others _ other), totals, unset _ (second.at_end.2.1 _ other)⟩

end ValidatorDays
