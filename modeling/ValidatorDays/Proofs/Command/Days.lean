import Mathlib
import ValidatorDays.Proofs.Chain.Days
import ValidatorDays.Proofs.Command.Course

namespace ValidatorDays

open Program

namespace Day

def row (first : Day) (count : Nat) : List Day :=
  (List.range count).map fun i : Nat => ⟨first.number + i⟩

def through (start stop : Day) : List Day := start.row (stop.number - start.number + 1).toNat

theorem row_succ (first : Day) (n : Nat) :
    first.row (n + 1) = first :: row ⟨first.number + 1⟩ n := by
  rw [row, List.range_succ_eq_map, List.map_cons, List.map_map]
  congr 1
  · simp
  · refine List.map_congr_left fun i _ => congrArg Day.mk ?_
    simp only [Nat.succ_eq_add_one]
    push_cast
    omega

end Day

def exporting (settings : Settings) (day : Day) : Program Unit :=
  ((exportDay settings day).mapFailure (.asReportWithin (exportHeading day))).bind fun _ => .done ()

section Row

variable {settings : Settings} {start stop : Day}

theorem exportFrom_eq {count : Nat} {day : Day}
    (fits : ∀ n, day.number ≤ n → n ≤ day.number + count → n ∈ Bounds.int32) :
    exportFrom settings count day = inTurn (exporting settings) (day.row count) := by
  induction count generalizing day with
  | zero => rfl
  | succ n ih =>
    have next := Day.next_found (fits (day.number + 1) (by omega) (by push_cast; omega))
    have later (m : Int) (above : day.number + 1 ≤ m) (below : m ≤ day.number + 1 + n) :
        m ∈ Bounds.int32 := fits m (by omega) (by push_cast; omega)
    have others : exportFrom settings n ⟨day.number + 1⟩ =
        inTurn (exporting settings) (Day.row ⟨day.number + 1⟩ n) := ih later
    rw [Day.row_succ, inTurn, exporting, Program.bind_assoc, ← others]
    refine congrArg _ (funext fun _ => ?_)
    show (ofOutcome (.ofChecked day.next)).bind (exportFrom settings n) = _
    rw [next]
    rfl

theorem exportDays_eq (ordered : start ≤ stop) (valid : start.number ∈ Bounds.int32)
    (before : stop.number < 2147483647) (fits : stop.number - start.number + 1 ∈ Bounds.int32) :
    exportDays settings start stop = inTurn (exporting settings) (start.through stop) := by
  have forward : start.number ≤ stop.number := ordered
  obtain ⟨least, -⟩ := valid
  obtain ⟨-, short⟩ := fits
  simp only [Bounds.int32] at least short
  have inside {n : Int} (above : -2147483648 ≤ n) (below : n ≤ 2147483647) :
      n ∈ Bounds.int32 := ⟨above, below⟩
  have span : Bounds.int32.check (stop.number - start.number) =
      .ok (stop.number - start.number) :=
    Bounds.check_of_mem (inside (by omega) (by omega))
  have count : Bounds.int32.check (stop.number - start.number + 1) =
      .ok (stop.number - start.number + 1) :=
    Bounds.check_of_mem (inside (by omega) short)
  have inOrder : ¬ stop < start := Int.not_lt.mpr forward
  rw [exportDays, if_neg inOrder, span]
  show (ofOutcome (.ofChecked (Bounds.int32.check (stop.number - start.number + 1)))).bind
    (fun count => exportFrom settings count.toNat start) = _
  rw [count]
  show exportFrom settings _ start = _
  exact exportFrom_eq fun n above below => inside (by omega) (by omega)

end Row

namespace Follow

/-- While nobody else works on the statuses, following the chain hands day after day to the export.
Each is one past the last that is finished by then, and the first of them goes by the statuses that
were there at the start. The next day comes only once the one before it is exported and finished,
the same day comes again after a failure that may pass, and so no day comes after a later one. What
ends the command is a refused statement, a failure of the export that will not pass, or a fault.
An export of a row of days takes each of them once, in order, up to the first that fails. -/
theorem days_in_order (settings : Settings) :
    (∀ t turns result, Course settings .lookUp t turns result →
      Runs (Follow.run settings turns.length .lookUp) (turns.flatMap Turn.events) result ∧
      (∀ v ∈ visits turns, v.found.Due v.day ∧ ∃ exported rest made,
        v.events = exported ++ rest ∧ Runs (exportDay settings v.day) exported made) ∧
      (∀ v ∈ (visits turns).head?, v.found = t) ∧
      (visits turns).IsChain (Visit.Before settings) ∧
      ((visits turns).map Visit.day).Pairwise (· ≤ ·) ∧
      ∀ cause, result = .error cause → ∃ before last, turns = before ++ [last] ∧
        Broken settings last.state last.events cause) ∧
    ∀ start stop : Day, start ≤ stop → start.number ∈ Bounds.int32 → stop.number < 2147483647 →
      stop.number - start.number + 1 ∈ Bounds.int32 → ∀ trace result,
        Runs (exportDays settings start stop) trace result ↔ ∃ journal,
          Taken (exporting settings) (start.through stop) journal result ∧
            trace = journal.flatMap Entry.events := by
  constructor
  · intro t turns result course
    have placed : Placed t .lookUp := trivial
    refine ⟨course.runs, fun v member => ⟨course.due placed v member, course.exports v member⟩,
      fun v first => (course.head placed v first).1,
      course.follows placed, course.days_ascend placed, ?_⟩
    rintro cause rfl
    exact course.ended
  · intro start stop ordered valid before fits trace result
    rw [exportDays_eq ordered valid before fits]
    exact runs_inTurn

def looksUp : Event → Bool
  | ⟨.query .lastExportedDay, _⟩ => true
  | _ => false

theorem leads_of_answer {settings : Settings} {t : StatusTable} {last : Option Day}
    {result : Outcome State} (newest : t.Newest last)
    (run : Runs (step settings .lookUp) [⟨.query .lastExportedDay, .ok last⟩] result) :
    Turn.Leads settings ⟨.lookUp, t, [⟨.query .lastExportedDay, .ok last⟩]⟩ result t := by
  refine ⟨run, ⟨trivial, trivial⟩, fun told asked => ?_, rfl⟩
  cases List.mem_singleton.mp asked
  exact newest

theorem leads_of_export {settings : Settings} {day : Day} {t : StatusTable}
    {exported chart : List Event} {status : DayStatus} {ended : Outcome Unit}
    (own : Runs (exportDay settings day) exported (.ok status))
    (agrees : (Books.opened t).Agrees exported)
    (charting : Runs (exportChartIfMissing settings day) chart ended)
    (agreesToo : ∀ u, (Books.opened u).Agrees chart)
    (others : ∀ e ∈ exported, looksUp e = false) (othersToo : ∀ e ∈ chart, looksUp e = false) :
    ∃ u, Turn.Leads settings ⟨.attempt day, t, exported ++ chart⟩
        (ended.map fun _ => .lookUp) u ∧ ∀ d, u.Finished d ↔ t.Finished d ∨ d = day := by
  obtain ⟨u, attempt⟩ : ∃ u, Attempt settings day t exported (.ok status) u := ⟨_, own, agrees, rfl⟩
  have harmless : ∀ e ∈ chart, e.Harmless :=
    fun e member => .inl ((exportChart_quiet settings day).asked charting e member)
  refine ⟨u, ⟨?_, ?_, ?_, ?_⟩, attempt.finishes⟩
  · exact runs_bind.mpr
      (.inl ⟨exported, _, chart, rfl, runs_attempt.mpr ⟨_, own, rfl⟩, charting.discard _⟩)
  · exact (Books.agrees_append ..).mpr ⟨agrees, attempt.closes ▸ agreesToo u⟩
  · intro last asked
    rcases List.mem_append.mp asked with before | after
    · cases others _ before
    · cases othersToo _ after
  · rw [Books.afterAll_append, attempt.closes]
    exact ((Books.still_opened u).afterAll harmless).1

/-- The day has all its statistics but is not finished, and it lies so far ahead that the calendar
has no date for it. -/
def farAhead : StatusTable :=
  (StatusTable.empty.put ⟨99999999⟩ (some ⟨true, fun _ => true⟩)).put ⟨100000000⟩
    (some ⟨false, fun _ => true⟩)

theorem newest_farAhead : farAhead.Newest (some ⟨99999999⟩) := by
  refine ⟨rfl, fun day finished => ?_⟩
  rw [farAhead, StatusTable.finished_put, StatusTable.finished_put] at finished
  split_ifs at finished with ahead same
  · exact same ▸ Int.le_refl _
  · exact absurd finished (StatusTable.not_finished_empty day)

theorem series_dateless :
    Runs (ChartSeries.write .standard ⟨100000000⟩) [] (.error (.fault .dateOutOfRange)) := by
  have dateless : ChartWindow.ofDay ⟨100000000⟩ = .error .dateOutOfRange := by cbv
  have begins : Runs (ofOutcome (.ofChecked (ChartWindow.ofDay ⟨100000000⟩))) []
      (.error (.fault .dateOutOfRange)) := runs_outcome.mpr ⟨rfl, by rw [dateless]; rfl⟩
  exact runs_bind.mpr (.inr ⟨_, begins, rfl⟩)

/-- Every statement goes well and the day is exported. Then there is no date to file its chart
series under, and that ends the command. -/
theorem ends_without_date : farAhead.Newest (some ⟨99999999⟩) ∧ ∃ turns,
    Course .standard .lookUp farAhead turns (.error (.fault .dateOutOfRange)) ∧
      (∀ turn ∈ turns, ∀ e ∈ turn.events, e.succeeded) ∧
      ∃ v, visits turns = [v] ∧ v.day = ⟨100000000⟩ ∧ v.Exported .standard := by
  obtain ⟨exported, status, run, agrees, plain⟩ :=
    exports_calm .standard ⟨100000000⟩ farAhead
      (fun e => decide e.succeeded && !looksUp e) (by cbv) (by cbv)
  have each (e : Event) (member : e ∈ exported) : e.succeeded ∧ looksUp e = false := by
    simpa using plain e member
  obtain ⟨u, leads, -⟩ := leads_of_export run agrees (exportChart_runs series_dateless)
    (fun _ => ⟨trivial, trivial⟩) (fun e member => (each e member).2) (by simp [looksUp])
  have first : Turn.Leads .standard _ (.ok (.attempt ⟨100000000⟩)) farAhead :=
    leads_of_answer newest_farAhead (.ask (r := .query .lastExportedDay) (.ok _) (.done _))
  refine ⟨newest_farAhead, _, .goes first (.ends leads), ?_, _, rfl, rfl, _, _, status, rfl, run⟩
  refine List.forall_mem_cons.mpr ⟨?_, List.forall_mem_singleton.mpr fun e asked => ?_⟩
  · exact List.forall_mem_singleton.mpr trivial
  · rcases List.mem_append.mp asked with before | last
    · exact (each e before).1
    · cases List.mem_singleton.mp last
      trivial

theorem newest_unfinished : unfinished.Newest none := by
  intro day finished
  rw [unfinished, StatusTable.finished_put] at finished
  split_ifs at finished
  exact absurd finished (StatusTable.not_finished_empty day)

theorem passes (settings : Settings) (day : Day) : Runs (exporting settings day)
    [⟨.query (.status day), .ok (some ⟨true, fun _ => true⟩)⟩] (.ok ()) :=
  .ask (r := .query (.status day)) (.ok _) (.done _)

/-- The first day is not final when it is tried first. When it is tried again it is exported, and
its chart series fails. The status of the next day cannot be read. -/
theorem days_in_order_first_days : ∃ turns cause,
    Course .standard .lookUp unfinished turns (.error cause) ∧
    (visits turns).map Visit.day = [⟨0⟩, ⟨0⟩, ⟨1⟩] ∧
    (visits turns).IsChain (Visit.Before .standard) ∧
    ∃ trace, Runs (exportDays .standard ⟨5⟩ ⟨6⟩) trace (.ok ()) ∧ ∃ journal,
      Taken (exporting .standard) [⟨5⟩, ⟨6⟩] journal (.ok ()) ∧
        trace = journal.flatMap Entry.events := by
  obtain ⟨cause, unread⟩ : ∃ cause, Runs (step .standard (.attempt ⟨1⟩))
      [⟨.query (.status ⟨1⟩), .error (.refused "boom")⟩] (.error cause) :=
    ⟨_, .ask (r := .query (.status ⟨1⟩)) (.error _) (.fail _)⟩
  have first : Turn.Leads .standard _ (.ok (.attempt .genesis)) unfinished :=
    leads_of_answer newest_unfinished (.ask (r := .query .lastExportedDay) (.ok _) (.done _))
  have second : Turn.Leads .standard ⟨.attempt .genesis, unfinished,
      [⟨.query (.status .genesis), .ok (some ⟨false, fun _ => true⟩)⟩, ⟨Stage.gate .genesis, .ok 0⟩,
        ⟨.patience, true⟩]⟩ (.ok (.attempt .genesis)) unfinished := by
    refine ⟨?_, ⟨rfl, trivial, trivial, trivial⟩, by simp [Stage.gate], rfl⟩
    exact .ask (r := .query (.status .genesis)) (.ok _)
      (.ask (r := Stage.gate .genesis) (.ok 0) (.ask (r := .patience) true (.done _)))
  obtain ⟨exported, status, run, agrees, plain⟩ :=
    exports_calm .standard .genesis unfinished (fun e => !looksUp e) (by cbv) (by cbv)
  have charting := exportChart_runs series_fails
  obtain ⟨u, third, grown⟩ := leads_of_export run agrees charting
    (fun _ => ⟨trivial, trivial, trivial⟩) (by simpa using plain) (by simp [looksUp])
  have due : unfinished.Due .genesis := ⟨none, newest_unfinished, rfl⟩
  have fourth : Turn.Leads .standard _ (.ok (.attempt ⟨1⟩)) u :=
    leads_of_answer (due.newest grown) (.ask (r := .query .lastExportedDay) (.ok _) (.done _))
  have last : Turn.Leads .standard
      ⟨.attempt ⟨1⟩, u, [⟨.query (.status ⟨1⟩), .error (.refused "boom")⟩]⟩ (.error cause) u :=
    ⟨unread, ⟨trivial, trivial⟩, by simp, rfl⟩
  have course := Course.goes first (.goes second (.goes third (.goes fourth (.ends last))))
  obtain ⟨follows, rows⟩ := days_in_order .standard
  obtain ⟨-, -, -, chain, -⟩ := follows _ _ _ course
  have taken := Taken.goes (passes .standard ⟨5⟩) (.goes (passes .standard ⟨6⟩) .nothing)
  refine ⟨_, _, course, rfl, chain, _, ?_, _, taken, rfl⟩
  exact (rows ⟨5⟩ ⟨6⟩ (by decide) (by decide) (by decide) (by decide) _ _).mpr ⟨_, taken, rfl⟩

end Follow
end ValidatorDays
