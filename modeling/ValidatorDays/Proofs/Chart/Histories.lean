import Mathlib
import ValidatorDays.Proofs.Chart.Totals
/-! Days exported in any order, again and again. The total emission of a day is the sum over the
days that were there when it was last exported, as they stood then; it is the sum over all exported
days up to it just if these were exported once more in their order. -/
namespace ValidatorDays

open Program

/-- Exports that succeeded, the last one first, and the points that are stored then. -/
inductive Exports (f : ChartFacts) : List Day → ChartTable → Prop where
  | nothing : Exports f [] .empty
  | next {earlier : List Day} {t : ChartTable} {settings : Settings} {day : Day}
      {trace : List Event} {points : List ChartPoint} (before : Exports f earlier t)
      (run : Runs (ChartSeries.write settings day) trace (.ok points))
      (agrees : (ChartBooks.opened t).Agrees f trace) :
      Exports f (day :: earlier) ((ChartBooks.opened t).afterAll trace).table

namespace Day

def latest? : List Day → Option Day
  | [] => none
  | first :: rest =>
    match latest? rest with
    | none => some first
    | some other => some (if other ≤ first then first else other)

/-- The latest of the days that come before this one. -/
def latestBefore (days : List Day) (day : Day) : Option Day := latest? (days.filter (· < day))

def upTo (days : List Day) (day : Day) : Finset Day := (days.filter (· ≤ day)).toFinset

/-- The days whose emissions are in the total of a day. An export takes over what was in the total
of the latest day before, and adds the day itself. -/
def summed : List Day → Day → Finset Day
  | [], _ => ∅
  | last :: earlier, day =>
    if day = last then
      match latestBefore earlier last with
      | none => {last}
      | some previous => insert last (summed earlier previous)
    else summed earlier day

/-- The exported days up to this one have been exported in their order, each of them some time
after the one before it. -/
def CaughtUp (history : List Day) (day : Day) : Prop :=
  ∃ order : List Day, order.Pairwise (fun later earlier => earlier < later) ∧
    (∀ d, d ∈ order ↔ d ∈ history ∧ d ≤ day) ∧ order.Sublist history

variable {last day previous latest d : Day} {days earlier history : List Day}

theorem mem_upTo : d ∈ upTo days day ↔ d ∈ days ∧ d ≤ day := by simp [upTo]

theorem latest?_eq_none (absent : latest? days = none) : days = [] := by
  cases days with
  | nil => rfl
  | cons first rest =>
    rw [latest?] at absent
    split at absent
    · cases absent
    · cases absent

theorem latest?_eq_some (found : latest? days = some latest) :
    latest ∈ days ∧ ∀ d ∈ days, d ≤ latest := by
  induction days generalizing latest with
  | nil => cases found
  | cons first rest ih =>
    simp only [List.mem_cons, forall_eq_or_imp]
    rw [latest?] at found
    split at found
    next absent =>
      obtain rfl := Option.some.inj found
      rw [latest?_eq_none absent]
      exact ⟨.inl rfl, le_refl first.number, fun d member => absurd member List.not_mem_nil⟩
    next other ofRest =>
      obtain ⟨member, atMost⟩ := ih ofRest
      split at found
      next upTo =>
        obtain rfl := Option.some.inj found
        exact ⟨.inl rfl, le_refl first.number, fun d inside => Int.le_trans (atMost d inside) upTo⟩
      next after =>
        obtain rfl := Option.some.inj found
        exact ⟨.inr member, (not_le.mp (mt le_iff.mpr after)).le, atMost⟩

theorem latestBefore_eq_none (absent : latestBefore days day = none) : ∀ d ∈ days, ¬ d < day := by
  have empty := latest?_eq_none absent
  simpa using empty

theorem latestBefore_eq_some (found : latestBefore days day = some latest) :
    (latest ∈ days ∧ latest < day) ∧ ∀ d ∈ days, d < day → d ≤ latest := by
  obtain ⟨inside, atMost⟩ := latest?_eq_some found
  have member := List.mem_filter.mp inside
  refine ⟨⟨member.1, of_decide_eq_true member.2⟩, fun d inside before => ?_⟩
  exact atMost d (List.mem_filter.mpr ⟨inside, decide_eq_true before⟩)

theorem mem_upTo_last : d ∈ upTo (last :: earlier) last ↔ d = last ∨ d ∈ earlier ∧ d < last := by
  rw [mem_upTo, List.mem_cons, le_iff, lt_iff]
  constructor
  · rintro ⟨rfl | inside, upTo⟩
    · exact .inl rfl
    · by_cases same : d = last
      · exact .inl same
      · exact .inr ⟨inside, upTo.lt_of_ne (mt number_inj.mp same)⟩
  · rintro (rfl | ⟨inside, before⟩)
    · exact ⟨.inl rfl, le_refl _⟩
    · exact ⟨.inr inside, before.le⟩

theorem upTo_last_none (absent : latestBefore earlier last = none) :
    upTo (last :: earlier) last = {last} := by
  ext d
  rw [mem_upTo_last, Finset.mem_singleton]
  exact ⟨fun found => found.resolve_right fun inside =>
    latestBefore_eq_none absent d inside.1 inside.2, .inl⟩

theorem upTo_last_some (found : latestBefore earlier last = some previous) :
    upTo (last :: earlier) last = insert last (upTo earlier previous) ∧
      last ∉ upTo earlier previous := by
  obtain ⟨⟨-, before⟩, latest⟩ := latestBefore_eq_some found
  constructor
  · ext d
    rw [mem_upTo_last, Finset.mem_insert, mem_upTo]
    refine or_congr_right (and_congr_right fun inside => ⟨latest d inside, fun upTo => ?_⟩)
    rw [le_iff] at upTo
    rw [lt_iff] at before ⊢
    omega
  · rw [mem_upTo, le_iff]
    rw [lt_iff] at before
    omega

theorem summed_subset : summed history day ⊆ upTo history day := by
  induction history generalizing day with
  | nil => exact Finset.empty_subset _
  | cons last earlier ih =>
    rw [summed]
    split
    next same =>
      subst same
      split
      next absent => rw [upTo_last_none absent]
      next previous found =>
        rw [(upTo_last_some found).1]
        exact Finset.insert_subset_insert _ ih
    next other =>
      intro d inside
      obtain ⟨member, upTo⟩ := mem_upTo.mp (ih inside)
      exact mem_upTo.mpr ⟨List.mem_cons_of_mem _ member, upTo⟩

theorem eq_cons_of_mem {order : List Day} (descending : order.Pairwise fun a b => b < a)
    (upTo : ∀ d ∈ order, d ≤ day) (member : day ∈ order) : ∃ rest, order = day :: rest := by
  cases order with
  | nil => cases member
  | cons first rest =>
    obtain same | behind := List.mem_cons.mp member
    · exact ⟨rest, same ▸ rfl⟩
    · have before := (List.pairwise_cons.mp descending).1 day behind
      have least := upTo first List.mem_cons_self
      rw [le_iff] at least
      rw [lt_iff] at before
      omega

theorem caughtUp_last_none (absent : latestBefore earlier last = none) :
    CaughtUp (last :: earlier) last := by
  refine ⟨[last], List.pairwise_singleton _ _, fun d => ?_,
    List.singleton_sublist.mpr List.mem_cons_self⟩
  rw [← mem_upTo, upTo_last_none absent, Finset.mem_singleton, List.mem_singleton]

theorem caughtUp_last_some (found : latestBefore earlier last = some previous) :
    CaughtUp (last :: earlier) last ↔ CaughtUp earlier previous := by
  obtain ⟨all, notBefore⟩ := upTo_last_some found
  have members : ∀ d, d ∈ last :: earlier ∧ d ≤ last ↔ d = last ∨ d ∈ earlier ∧ d ≤ previous := by
    intro d
    rw [← mem_upTo, all, Finset.mem_insert, mem_upTo]
  constructor
  · rintro ⟨order, descending, inOrder, part⟩
    have upTo : ∀ d ∈ order, d ≤ last := fun d inside => ((inOrder d).mp inside).2
    have inside := (inOrder last).mpr ⟨List.mem_cons_self, le_refl last.number⟩
    obtain ⟨rest, rfl⟩ := eq_cons_of_mem descending upTo inside
    obtain ⟨below, descending⟩ := List.pairwise_cons.mp descending
    refine ⟨rest, descending, fun d => ?_, List.cons_sublist_cons.mp part⟩
    constructor
    · intro later
      have other : d ≠ last := fun same => lt_irrefl last.number (same ▸ below d later)
      have found := (members d).mp ((inOrder d).mp (List.mem_cons_of_mem _ later))
      exact found.resolve_left other
    · intro before
      have other : d ≠ last := fun same => notBefore (mem_upTo.mpr (same ▸ before))
      have found := (inOrder d).mpr ((members d).mpr (.inr before))
      exact (List.mem_cons.mp found).resolve_left other
  · rintro ⟨order, descending, inOrder, part⟩
    refine ⟨last :: order, List.pairwise_cons.mpr ⟨fun d inside => ?_, descending⟩, fun d => ?_,
      part.cons_cons last⟩
    · have upTo := ((inOrder d).mp inside).2
      have before := (latestBefore_eq_some found).1.2
      rw [le_iff] at upTo
      rw [lt_iff] at before ⊢
      omega
    · rw [members, List.mem_cons, inOrder]

theorem caughtUp_other (exported : day ∈ earlier) (other : day ≠ last) :
    CaughtUp (last :: earlier) day ↔ CaughtUp earlier day ∧ (last ≤ day → last ∈ earlier) := by
  constructor
  · rintro ⟨order, descending, inOrder, part⟩
    have upTo : ∀ d ∈ order, d ≤ day := fun d inside => ((inOrder d).mp inside).2
    have inside := (inOrder day).mpr ⟨List.mem_cons_of_mem _ exported, le_refl day.number⟩
    obtain ⟨rest, rfl⟩ := eq_cons_of_mem descending upTo inside
    have part := part.of_cons_of_ne other
    refine ⟨⟨day :: rest, descending, fun d => ?_, part⟩, fun before => ?_⟩
    · exact ⟨fun inside => ⟨part.subset inside, upTo d inside⟩,
        fun ⟨member, before⟩ => (inOrder d).mpr ⟨List.mem_cons_of_mem _ member, before⟩⟩
    · exact part.subset ((inOrder last).mpr ⟨List.mem_cons_self, before⟩)
  · rintro ⟨⟨order, descending, inOrder, part⟩, again⟩
    refine ⟨order, descending, fun d => ?_, part.cons last⟩
    rw [inOrder, List.mem_cons]
    refine and_congr_left fun before => ⟨.inr, fun member => member.elim (fun same => ?_) id⟩
    exact same ▸ again (same ▸ before)

theorem upTo_other (inside : summed earlier day ⊆ upTo earlier day) :
    summed earlier day = upTo (last :: earlier) day ↔
      summed earlier day = upTo earlier day ∧ (last ≤ day → last ∈ earlier) := by
  have more : upTo earlier day ⊆ upTo (last :: earlier) day := fun d member =>
    mem_upTo.mpr ((mem_upTo.mp member).imp_left (List.mem_cons_of_mem _))
  constructor
  · intro same
    refine ⟨inside.antisymm (same ▸ more), fun before => ?_⟩
    have found := same ▸ mem_upTo.mpr ⟨List.mem_cons_self, before⟩
    exact (mem_upTo.mp (inside found)).1
  · rintro ⟨same, again⟩
    refine same.trans (more.antisymm fun d member => ?_)
    obtain ⟨member, before⟩ := mem_upTo.mp member
    refine mem_upTo.mpr ⟨(List.mem_cons.mp member).elim (fun same => ?_) id, before⟩
    exact same ▸ again (same ▸ before)

theorem summed_eq_iff (exported : day ∈ history) :
    summed history day = upTo history day ↔ CaughtUp history day := by
  induction history generalizing day with
  | nil => cases exported
  | cons last earlier ih =>
    rw [summed]
    split
    next same =>
      subst same
      split
      next absent => exact iff_of_true (upTo_last_none absent).symm (caughtUp_last_none absent)
      next previous found =>
        obtain ⟨⟨member, -⟩, -⟩ := latestBefore_eq_some found
        obtain ⟨all, notBefore⟩ := upTo_last_some found
        rw [all, caughtUp_last_some found, ← ih member]
        constructor
        · intro same
          have without : day ∉ summed earlier previous := fun inside =>
            notBefore (summed_subset inside)
          rw [← Finset.erase_insert without, same, Finset.erase_insert notBefore]
        · rintro same
          rw [same]
    next other =>
      have member := (List.mem_cons.mp exported).resolve_left other
      rw [upTo_other summed_subset, caughtUp_other member other, ih member]

end Day

namespace Exports

variable {f : ChartFacts} {history : List Day} {t : ChartTable}

/-- The answer for the day that is exported next is the total of the latest exported day before. -/
theorem latest_eq {day : Day} {answer : Option Decimal} (latest : t.Latest day.midnight answer)
    (filed : ∀ moment, (t.total? moment).isSome ↔ ∃ d ∈ history, moment = d.midnight) :
    match Day.latestBefore history day with
    | none => answer = none
    | some previous => ∃ total, t.total? previous.midnight = some total ∧
        total.value = (answer.getD 0).value := by
  split
  next absent =>
    cases answer with
    | none => rfl
    | some answer =>
      obtain ⟨time, before, ⟨total, found, -⟩, -⟩ := latest
      obtain ⟨d, member, rfl⟩ := (filed time).mp (Option.isSome_of_eq_some found)
      exact absurd (Day.midnight_lt.mp before) (Day.latestBefore_eq_none absent d member)
  next previous found =>
    obtain ⟨⟨member, before⟩, greatest⟩ := Day.latestBefore_eq_some found
    have there := (filed previous.midnight).mpr ⟨previous, member, rfl⟩
    cases answer with
    | none =>
      rw [latest _ (Day.midnight_lt.mpr before)] at there
      cases there
    | some answer =>
      obtain ⟨time, early, ⟨total, found, value⟩, last⟩ := latest
      obtain ⟨d, inside, rfl⟩ := (filed time).mp (Option.isSome_of_eq_some found)
      have upTo := greatest d inside (Day.midnight_lt.mp early)
      by_cases same : d = previous
      · exact ⟨total, same ▸ found, value⟩
      · have between : d < previous := Day.lt_iff.mpr (upTo.lt_of_ne (mt Day.number_inj.mp same))
        rw [last _ (Day.midnight_lt.mpr between) (Day.midnight_lt.mpr before)] at there
        cases there

/-- Totals are filed under the exported days only, and the total of each of them is the sum of the
emissions that it has taken over or brought. -/
theorem totals (exports : Exports f history t) :
    (∀ moment, (t.total? moment).isSome ↔ ∃ d ∈ history, moment = d.midnight) ∧
      ∀ d ∈ history, ∃ total, t.total? d.midnight = some total ∧
        total.value = ∑ x ∈ Day.summed history d, f.emission x := by
  induction exports with
  | nothing =>
    refine ⟨fun moment => ?_, fun d member => absurd member List.not_mem_nil⟩
    simp [ChartTable.total?, ChartTable.empty]
  | @next earlier t settings day trace points before run agrees ih =>
    obtain ⟨filed, sums⟩ := ih
    obtain ⟨answer, total, latest, value, effect⟩ := ChartBooks.total?_export run agrees
    have taken := latest_eq latest filed
    refine ⟨fun moment => ?_, fun d member => ?_⟩
    · rw [effect]
      split
      next same => exact iff_of_true rfl ⟨day, List.mem_cons_self, same⟩
      next other =>
        rw [filed, List.exists_mem_cons_iff]
        exact (or_iff_right other).symm
    · rw [effect, Day.summed]
      by_cases same : d = day
      · rw [if_pos same, if_pos (congrArg Day.midnight same)]
        refine ⟨total, rfl, ?_⟩
        rw [value]
        split at taken
        next absent =>
          rw [taken, Option.getD_none, Decimal.value_zero, zero_add, Finset.sum_singleton]
        next previous found =>
          obtain ⟨⟨member, -⟩, -⟩ := Day.latestBefore_eq_some found
          obtain ⟨carried, there, sameValue⟩ := taken
          obtain ⟨stored, thereToo, sum⟩ := sums previous member
          obtain rfl := Option.some.inj (there.symm.trans thereToo)
          have without : day ∉ Day.summed earlier previous := fun inside =>
            (Day.upTo_last_some found).2 (Day.summed_subset inside)
          rw [Finset.sum_insert without, ← sum, sameValue, add_comm]
      · rw [if_neg same, if_neg (mt Day.midnight_inj.mp same)]
        exact sums d ((List.mem_cons.mp member).resolve_left same)

open ChartBooks ChartSeries in
theorem exists_next (before : Exports f history t) (settings : Settings) (day : Day)
    {emission : Instant → Option Decimal} (latest : ∀ before, t.Latest before (emission before))
    (order : ((calmExport f emission settings day).1.dropWhile fun e => Asks e.1).all
      (fun e => ¬ Asks e.1) = true)
    (done : (calmExport f emission settings day).2.toBool = true) :
    ∃ after, Exports f (day :: history) after := by
  obtain ⟨points, run⟩ := runs_calmExport done
  refine ⟨_, .next before run (agrees_of_asks_first (fun e member => ?_) order)⟩
  obtain ⟨r, answer⟩ := e
  have same : answer = calmAnswer f emission r := steady_answers _ _ ⟨r, answer⟩ member
  rw [same]
  exact calm_answers latest r

end Exports

/-- Whatever days have been exported in whatever order, the total emission that is stored for each
of them is the sum of the emissions of days up to it. All exported days up to it are in the sum just
if they have been exported once more in their order; the total is right just if those that are not
in it brought nothing together. -/
theorem total_of_history {f : ChartFacts} {history : List Day} {t : ChartTable}
    (exports : Exports f history t) (day : Day) (exported : day ∈ history) :
    ∃ total, t.total? day.midnight = some total ∧
      total.value = ∑ x ∈ Day.summed history day, f.emission x ∧
      Day.summed history day ⊆ Day.upTo history day ∧
      (Day.summed history day = Day.upTo history day ↔ Day.CaughtUp history day) ∧
      (total.value = ∑ x ∈ Day.upTo history day, f.emission x ↔
        ∑ x ∈ Day.upTo history day \ Day.summed history day, f.emission x = 0) := by
  obtain ⟨total, found, sum⟩ := exports.totals.2 day exported
  refine ⟨total, found, sum, Day.summed_subset, Day.summed_eq_iff exported, ?_⟩
  rw [sum, ← Finset.sum_sdiff Day.summed_subset, right_eq_add]

/-- A chain without blocks. A day brings as many gwei as its number says. -/
def ChartFacts.bare : ChartFacts where
  firstBlock slot := some slot.number
  chain := []
  descending := List.Pairwise.nil
  rewards day := ⟨day.number⟩

theorem ChartFacts.bare_emission (day : Day) :
    bare.emission day = (day.number * 1000000000 : Int) := by
  have noBlocks : bare.blocks day = [] := by
    unfold blocks
    split
    · rfl
    · rfl
  rw [emission, noBlocks]
  show (((day.number * weiPerGwei : Int) : ℚ) + (0 : Decimal).value - (0 : Decimal).value) = _
  rw [Decimal.value_zero, add_zero, sub_zero]
  rfl

namespace Exports

theorem late : ∃ t, Exports .bare [⟨1⟩, ⟨2⟩] t := by
  have start : Exports .bare [] .empty := .nothing
  have empty : ∀ before, ChartTable.empty.Latest before none := fun before time _ => rfl
  obtain ⟨t, second⟩ := start.exists_next
    { Settings.standard with activationBlock := 0, chartBlocks := 10000 } ⟨2⟩ empty
    (by cbv) (by cbv)
  obtain ⟨filed, sums⟩ := second.totals
  obtain ⟨total, found, -⟩ := sums ⟨2⟩ List.mem_cons_self
  have others : ∀ moment, moment ≠ Day.midnight ⟨2⟩ → t.total? moment = none := by
    intro moment other
    refine Option.not_isSome_iff_eq_none.mp fun there => ?_
    obtain ⟨d, member, same⟩ := (filed moment).mp there
    cases List.mem_singleton.mp member
    exact other same
  have latest : ∀ before, t.Latest before
      (if Day.midnight ⟨2⟩ < before then some total else none) := by
    intro before
    split
    next early =>
      refine ⟨_, early, ⟨total, found, rfl⟩, fun later after _ => others later ?_⟩
      rintro rfl
      exact Int.lt_irrefl _ after
    next late =>
      intro time early
      refine others time ?_
      rintro rfl
      exact late early
  exact second.exists_next
    { Settings.standard with activationBlock := 0, chartBlocks := 10000 } ⟨1⟩ latest (by cbv)
    (by cbv)

end Exports

theorem total_of_history_late :
    ∃ t, Exports .bare [⟨1⟩, ⟨2⟩] t ∧ ∃ total, t.total? (Day.midnight ⟨2⟩) = some total ∧
      total.value = ∑ x ∈ Day.summed [⟨1⟩, ⟨2⟩] ⟨2⟩, ChartFacts.bare.emission x ∧
      ¬ Day.CaughtUp [⟨1⟩, ⟨2⟩] ⟨2⟩ := by
  obtain ⟨t, exports⟩ := Exports.late
  obtain ⟨total, found, sum, -, caughtUp, -⟩ := total_of_history exports ⟨2⟩ (by decide)
  exact ⟨t, exports, total, found, sum, mt caughtUp.mpr (by decide)⟩

/-- The total of the second day was stored before the first day was there. It is two gwei, although
both days are exported and brought three. -/
theorem late_day_left_out :
    ∃ t, Exports .bare [⟨1⟩, ⟨2⟩] t ∧ ∃ total, t.total? (Day.midnight ⟨2⟩) = some total ∧
      total.value = 2000000000 ∧
      ∑ x ∈ Day.upTo [⟨1⟩, ⟨2⟩] ⟨2⟩, ChartFacts.bare.emission x = 3000000000 := by
  obtain ⟨t, exports⟩ := Exports.late
  obtain ⟨total, found, sum⟩ := exports.totals.2 ⟨2⟩ (by decide)
  have alone : Day.summed [⟨1⟩, ⟨2⟩] ⟨2⟩ = {⟨2⟩} := by decide
  have both : Day.upTo [⟨1⟩, ⟨2⟩] ⟨2⟩ = {⟨1⟩, ⟨2⟩} := by decide
  refine ⟨t, exports, total, found, ?_, ?_⟩
  · rw [sum, alone, Finset.sum_singleton, ChartFacts.bare_emission]
    norm_num
  · rw [both, Finset.sum_pair (by decide), ChartFacts.bare_emission, ChartFacts.bare_emission]
    norm_num

end ValidatorDays
