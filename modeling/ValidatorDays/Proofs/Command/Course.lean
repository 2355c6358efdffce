import ValidatorDays.Proofs.Command.Follow
import ValidatorDays.Proofs.Income.Base
import ValidatorDays.Proofs.Stage.Failures
/-! The days that following the chain comes to, while nobody else works on the statuses. Each day
is one past the last that is finished by then. So a day comes again after a failure that may pass,
and the next day comes once the last one is finished. -/
namespace ValidatorDays

open Program

/-- One past the last finished day. If there is none, it is the first. -/
def Day.following : Option Day → Day
  | none => .genesis
  | some last => ⟨last.number + 1⟩

namespace StatusTable

variable {t u : StatusTable} {day other : Day}

def Due (t : StatusTable) (day : Day) : Prop := ∃ last, t.Newest last ∧ day = .following last

theorem Due.unique (due : t.Due day) (dueToo : t.Due other) : day = other := by
  obtain ⟨last, newest, rfl⟩ := due
  obtain ⟨last', newestToo, rfl⟩ := dueToo
  rw [newest.unique newestToo]

theorem Due.congr (due : t.Due day) (same : ∀ d, u.Finished d ↔ t.Finished d) : u.Due day := by
  obtain ⟨last, newest, rfl⟩ := due
  refine ⟨last, ?_, rfl⟩
  cases last with
  | none => exact fun d => (same d).not.mpr (newest d)
  | some last =>
    exact ⟨(same last).mpr newest.1, fun d finished => newest.2 d ((same d).mp finished)⟩

theorem Due.above (due : t.Due day) {d : Day} (finished : t.Finished d) :
    d.number < day.number := by
  obtain ⟨last, newest, rfl⟩ := due
  cases last with
  | none => exact absurd finished (newest d)
  | some last => exact Int.lt_add_one_of_le (newest.2 d finished)

theorem Due.newest (due : t.Due day) (grown : ∀ d, u.Finished d ↔ t.Finished d ∨ d = day) :
    u.Newest (some day) := by
  refine ⟨(grown day).mpr (.inr rfl), fun d finished => ?_⟩
  rcases (grown d).mp finished with before | rfl
  · exact Int.le_of_lt (due.above before)
  · exact Int.le_refl _

end StatusTable

theorem ChartSeries.Asks.quiet {r : Request} (asks : ChartSeries.Asks r) :
    r.Within Write.Quiet := by
  cases r with
  | write | startWrite | pollWrites | awaitWrites => exact asks.elim
  | _ => exact List.forall_mem_nil _

theorem ChartSeries.write_quiet (settings : Settings) (day : Day) :
    (write settings day).Only (Request.Within Write.Quiet) := by
  have merges (batch : Batch) : (Request.write (.merge batch)).Within Write.Quiet := by
    simp [Request.Within, Request.writes, Write.Quiet]
  have marks : (Request.write (.markChartDay day)).Within Write.Quiet := by
    simp [Request.Within, Request.writes, Write.Quiet]
  rw [write_eq]
  apply Only.bind ((reading_asks settings day).mono fun _ => Asks.quiet)
  intro points
  apply Only.bind (mergeRowsTogether_only (List.forall_mem_nil _) merges (List.forall_mem_nil _))
  intro _
  apply Only.bind (.mapFailure (.bind (.outcome _) fun _ => .ask marks .ofDatabase))
  exact fun _ => .done points

theorem exportChart_quiet (settings : Settings) (day : Day) :
    (exportChartIfMissing settings day).Only (Request.Within Write.Quiet) := by
  apply Only.bind (.read (List.forall_mem_nil _))
  intro there
  cases there with
  | true => exact .done ()
  | false =>
    apply Only.bind (ChartSeries.write_quiet settings day).attempt
    rintro (failure | points)
    · cases failure with
      | fault fault => exact .fail _
      | _ => exact .done ()
    · exact .done ()

namespace Follow

variable {settings : Settings} {day : Day} {t u : StatusTable} {events : List Event}
  {result : Outcome State}

/-- A turn of the command: where it stood, the statuses that it found, and what it saw. -/
structure Turn where
  state : State
  found : StatusTable
  events : List Event

/-- Nobody else works on the statuses in the turn, and who asks for the last exported day is told
the last one that is finished. A transaction that is open when the turn ends is lost. -/
structure Turn.Leads (settings : Settings) (turn : Turn) (result : Outcome State)
    (left : StatusTable) : Prop where
  runs : Runs (step settings turn.state) turn.events result
  agrees : (Books.opened turn.found).Agrees turn.events
  told : ∀ last, ⟨.query .lastExportedDay, .ok last⟩ ∈ turn.events → turn.found.Newest last
  leaves : ((Books.opened turn.found).afterAll turn.events).table = left

/-- Turn after turn, each with the statuses that the one before it has left. -/
inductive Course (settings : Settings) :
    State → StatusTable → List Turn → Outcome State → Prop where
  | rests (state : State) (t : StatusTable) : Course settings state t [] (.ok state)
  | ends {state : State} {t u : StatusTable} {events : List Event} {cause : Failure}
      (leads : Turn.Leads settings ⟨state, t, events⟩ (.error cause) u) :
      Course settings state t [⟨state, t, events⟩] (.error cause)
  | goes {state next : State} {t u : StatusTable} {events : List Event} {turns : List Turn}
      {result : Outcome State} (leads : Turn.Leads settings ⟨state, t, events⟩ (.ok next) u)
      (others : Course settings next u turns result) :
      Course settings state t (⟨state, t, events⟩ :: turns) result

structure Visit where
  day : Day
  found : StatusTable
  events : List Event

def Turn.visit? : Turn → Option Visit
  | ⟨.attempt day, found, events⟩ => some ⟨day, found, events⟩
  | ⟨.lookUp, _, _⟩ => none

def visits (turns : List Turn) : List Visit := turns.filterMap Turn.visit?

namespace Visit

def Exported (settings : Settings) (v : Visit) : Prop :=
  ∃ exported chart status, v.events = exported ++ chart ∧
    Runs (exportDay settings v.day) exported (.ok status)

/-- The export failed, but it may go well another time. -/
def Postponed (settings : Settings) (v : Visit) : Prop :=
  ∃ exported again e, v.events = exported ++ [⟨.patience, again⟩] ∧
    Runs (exportDay settings v.day) exported (.error (.stage e)) ∧ e.isRetryable = true

/-- The next day comes once this one is exported and finished. The same day comes again after a
failure that may pass. -/
def Before (settings : Settings) (v w : Visit) : Prop :=
  (v.Exported settings ∧ w.found.Finished v.day ∧ w.day.number = v.day.number + 1) ∨
    (v.Postponed settings ∧ w.day = v.day)

end Visit

/-- What ends the command: a statement that is refused, a failure of the export that will not pass,
or a fault. -/
inductive Broken (settings : Settings) : State → List Event → Failure → Prop where
  | unanswered (refusal : DatabaseError) : Broken settings .lookUp
      [⟨.query .lastExportedDay, .error refusal⟩] (.report ⟨refusal.chain⟩)
  | daysOver {last : Day} {fault : Fault} (noNext : last.next = .error fault) :
      Broken settings .lookUp [⟨.query .lastExportedDay, .ok (some last)⟩] (.fault fault)
  | failed {day : Day} {events : List Event} {e : StageError}
      (run : Runs (exportDay settings day) events (.error (.stage e)))
      (final : e.isRetryable = false) :
      Broken settings (.attempt day) events ((Failure.stage e).asReportWithin (exportHeading day))
  | faulty {day : Day} {events : List Event} {fault : Fault}
      (run : Runs (exportDay settings day) events (.error (.fault fault))) :
      Broken settings (.attempt day) events (.fault fault)
  | heldUp {day : Day} {exported chart : List Event} {status : DayStatus} {cause : Failure}
      (run : Runs (exportDay settings day) exported (.ok status))
      (held : HeldUp settings day chart) :
      Broken settings (.attempt day) (exported ++ chart) cause

theorem lookUp_runs (run : Runs (step settings .lookUp) events result) :
    ∃ answer, events = [⟨.query .lastExportedDay, answer⟩] ∧
      ((∃ last, answer = .ok last ∧ result = .ok (.attempt (.following last))) ∨
        ∃ cause, result = .error cause ∧ Broken settings .lookUp events cause) := by
  cases run with
  | ask answer rest =>
    refine ⟨answer, ?_⟩
    cases answer with
    | error refusal =>
      cases rest
      exact ⟨rfl, .inr ⟨_, rfl, .unanswered refusal⟩⟩
    | ok last =>
      cases last with
      | none =>
        cases rest
        exact ⟨rfl, .inl ⟨none, rfl, rfl⟩⟩
      | some last =>
        change Runs ((ofOutcome (.ofChecked last.next)).bind
          fun day => .done (State.attempt day)) _ _ at rest
        cases next : last.next with
        | error fault =>
          rw [next] at rest
          cases rest
          exact ⟨rfl, .inr ⟨_, rfl, .daysOver next⟩⟩
        | ok day =>
          rw [next] at rest
          cases rest
          exact ⟨rfl, .inl ⟨_, rfl, by rw [(Day.next_eq next).1]; rfl⟩⟩

/-- In a turn for a day the day is exported, and then its chart series follows; or the export fails
and may go well another time; or the command ends. -/
theorem attempt_runs (attempted : Turn.Leads settings ⟨.attempt day, t, events⟩ result u) :
    (∃ exported chart status, events = exported ++ chart ∧
      Runs (exportDay settings day) exported (.ok status) ∧
      Runs (exportChartIfMissing settings day) chart (.ok ()) ∧ result = .ok .lookUp) ∨
    (∃ exported again e, events = exported ++ [⟨.patience, again⟩] ∧
      Runs (exportDay settings day) exported (.error (.stage e)) ∧ e.isRetryable = true ∧
      result = .ok (if again then .attempt day else .lookUp)) ∨
    ∃ cause, result = .error cause ∧ Broken settings (.attempt day) events cause := by
  obtain ⟨exported, made, rest, rfl, trying, onward⟩ | ⟨_, failed, -⟩ :=
    runs_bind.mp attempted.runs
  · obtain ⟨_, own, same⟩ := runs_attempt.mp trying
    cases same
    cases made with
    | ok status =>
      obtain ⟨chart, _, after, rfl, charting, told⟩ | ⟨cause, charting, rfl⟩ := runs_bind.mp onward
      · cases told
        exact .inl ⟨exported, chart, status, by rw [List.append_nil], own, charting, rfl⟩
      · have held : HeldUp settings day rest := (exportChart_fails_iff charting).mpr ⟨cause, rfl⟩
        exact .inr (.inr ⟨cause, rfl, .heldUp own held⟩)
    | error cause =>
      have attempt : Attempt settings day t exported (.error cause) _ :=
        ⟨own, ((Books.agrees_append ..).mp attempted.agrees).1, rfl⟩
      obtain ⟨e, rfl⟩ | ⟨fault, rfl⟩ := attempt.fails
      · cases again : e.isRetryable with
        | true =>
          simp only [again] at onward
          cases onward with
          | ask patience told =>
            cases told
            exact .inr (.inl ⟨exported, patience, e, rfl, own, again, rfl⟩)
        | false =>
          simp only [again] at onward
          cases onward
          rw [List.append_nil]
          exact .inr (.inr ⟨_, rfl, .failed own again⟩)
      · cases onward
        rw [List.append_nil]
        exact .inr (.inr ⟨_, rfl, .faulty own⟩)
  · obtain ⟨_, -, impossible⟩ := runs_attempt.mp failed
    cases impossible

theorem Turn.Leads.lookUp {next : State}
    (leads : Turn.Leads settings ⟨.lookUp, t, events⟩ (.ok next) u) :
    u = t ∧ ∃ day, next = .attempt day ∧ t.Due day := by
  obtain ⟨_, rfl, ⟨last, rfl, same⟩ | ⟨_, same, -⟩⟩ := lookUp_runs leads.runs
  · cases same
    refine ⟨?_, _, rfl, last, leads.told last (List.mem_singleton_self _), rfl⟩
    exact leads.leaves.symm
  · cases same

theorem Turn.Leads.attempt {next : State}
    (leads : Turn.Leads settings ⟨.attempt day, t, events⟩ (.ok next) u) :
    (Visit.Exported settings ⟨day, t, events⟩ ∧ next = .lookUp ∧
      ∀ d, u.Finished d ↔ t.Finished d ∨ d = day) ∨
    (Visit.Postponed settings ⟨day, t, events⟩ ∧ (next = .attempt day ∨ next = .lookUp) ∧
      ∀ d, u.Finished d ↔ t.Finished d) := by
  have agrees := leads.agrees
  have leaves := leads.leaves
  obtain ⟨exported, chart, status, rfl, own, charting, same⟩ |
    ⟨exported, again, e, rfl, own, retryable, same⟩ | ⟨_, same, -⟩ := attempt_runs leads
  · cases same
    obtain ⟨v, attempt⟩ : ∃ v, Attempt settings day t exported (.ok status) v :=
      ⟨_, own, ((Books.agrees_append ..).mp agrees).1, rfl⟩
    -- The chart series changes no status.
    have harmless : ∀ e ∈ chart, e.Harmless :=
      fun e member => .inl ((exportChart_quiet settings day).asked charting e member)
    have same : u = v := by
      rw [← leaves, Books.afterAll_append, attempt.closes]
      exact ((Books.still_opened v).afterAll harmless).1
    subst same
    exact .inl ⟨⟨exported, chart, status, rfl, own⟩, rfl, attempt.finishes⟩
  · cases same
    have waits (b : Books) : (b.after ⟨.patience, again⟩).table = b.table := by
      obtain ⟨rows, pending⟩ := b
      cases pending <;> rfl
    have attempt : Attempt settings day t exported (.error (.stage e)) u := by
      refine ⟨own, ((Books.agrees_append ..).mp agrees).1, ?_⟩
      rw [← leaves, Books.afterAll_append]
      exact (waits _).symm
    have finished := attempt.finished_of_retryable retryable
    refine .inr ⟨⟨exported, again, e, rfl, own, retryable⟩, ?_, finished⟩
    cases again with
    | true => exact .inl rfl
    | false => exact .inr rfl
  · cases same

def Placed (t : StatusTable) : State → Prop
  | .lookUp => True
  | .attempt day => t.Due day

theorem Turn.Leads.placed {state next : State}
    (leads : Turn.Leads settings ⟨state, t, events⟩ (.ok next) u) (placed : Placed t state) :
    Placed u next := by
  cases state with
  | lookUp =>
    obtain ⟨rfl, day, rfl, due⟩ := leads.lookUp
    exact due
  | attempt day =>
    obtain ⟨-, rfl, -⟩ | ⟨-, rfl | rfl, same⟩ := leads.attempt
    · trivial
    · exact StatusTable.Due.congr placed same
    · trivial

namespace Course

variable {state : State} {turns : List Turn}

theorem runs (course : Course settings state t turns result) :
    Runs (Follow.run settings turns.length state) (turns.flatMap Turn.events) result := by
  induction course with
  | rests state t => exact .done state
  | ends leads =>
    rw [List.flatMap_singleton]
    exact runs_bind.mpr (.inr ⟨_, leads.runs, rfl⟩)
  | goes leads others ih => exact runs_bind.mpr (.inl ⟨_, _, _, rfl, leads.runs, ih⟩)

theorem exports (course : Course settings state t turns result) : ∀ v ∈ visits turns,
    ∃ exported rest made, v.events = exported ++ rest ∧
      Runs (exportDay settings v.day) exported made := by
  have begins {day : Day} {t u : StatusTable} {events : List Event} {result : Outcome State}
      (leads : Turn.Leads settings ⟨.attempt day, t, events⟩ result u) :
      ∃ exported rest made, events = exported ++ rest ∧
        Runs (exportDay settings day) exported made := by
    obtain ⟨exported, _, rest, split, trying, -⟩ | ⟨_, failed, -⟩ := runs_bind.mp leads.runs
    · obtain ⟨made, own, -⟩ := runs_attempt.mp trying
      exact ⟨exported, rest, made, split, own⟩
    · obtain ⟨_, -, impossible⟩ := runs_attempt.mp failed
      cases impossible
  induction course with
  | rests state t => exact List.forall_mem_nil _
  | @ends state t u events cause leads =>
    cases state with
    | lookUp => exact List.forall_mem_nil _
    | attempt day => exact List.forall_mem_singleton.mpr (begins leads)
  | @goes state next t u events turns result leads others ih =>
    cases state with
    | lookUp => exact ih
    | attempt day => exact List.forall_mem_cons.mpr ⟨begins leads, ih⟩

theorem head (course : Course settings state t turns result) (placed : Placed t state) :
    ∀ w ∈ (visits turns).head?, w.found = t ∧ t.Due w.day := by
  induction course with
  | rests state t => exact nofun
  | @ends state t u events cause leads =>
    cases state with
    | lookUp => exact nofun
    | attempt day =>
      rintro w same
      cases same
      exact ⟨rfl, placed⟩
  | @goes state next t u events turns result leads others ih =>
    cases state with
    | lookUp =>
      obtain ⟨rfl, -⟩ := leads.lookUp
      exact ih (leads.placed placed)
    | attempt day =>
      rintro w same
      cases same
      exact ⟨rfl, placed⟩

theorem due (course : Course settings state t turns result) (placed : Placed t state) :
    ∀ v ∈ visits turns, v.found.Due v.day := by
  induction course with
  | rests state t => exact List.forall_mem_nil _
  | @ends state t u events cause leads =>
    cases state with
    | lookUp => exact List.forall_mem_nil _
    | attempt day => exact List.forall_mem_singleton.mpr placed
  | @goes state next t u events turns result leads others ih =>
    have rest := ih (leads.placed placed)
    cases state with
    | lookUp => exact rest
    | attempt day => exact List.forall_mem_cons.mpr ⟨placed, rest⟩

theorem follows (course : Course settings state t turns result) (placed : Placed t state) :
    (visits turns).IsChain (Visit.Before settings) := by
  induction course with
  | rests state t => exact .nil
  | @ends state t u events cause leads =>
    cases state with
    | lookUp => exact .nil
    | attempt day => exact .singleton _
  | @goes state next t u events turns result leads others ih =>
    have rest := ih (leads.placed placed)
    cases state with
    | lookUp => exact rest
    | attempt day =>
      refine List.isChain_cons.mpr ⟨fun w first => ?_, rest⟩
      obtain ⟨found, due⟩ := others.head (leads.placed placed) w first
      obtain ⟨exported, -, grown⟩ | ⟨postponed, -, same⟩ := leads.attempt
      · have newest := StatusTable.Due.newest placed grown
        refine .inl ⟨exported, found ▸ newest.1, ?_⟩
        rw [due.unique ⟨_, newest, rfl⟩]
        rfl
      · exact .inr ⟨postponed, due.unique (StatusTable.Due.congr placed same)⟩

theorem days_ascend (course : Course settings state t turns result) (placed : Placed t state) :
    ((visits turns).map Visit.day).Pairwise (· ≤ ·) := by
  have trans : Trans (fun a b : Day => a ≤ b) (fun a b : Day => a ≤ b) fun a b : Day => a ≤ b :=
    ⟨fun first second => Int.le_trans first second⟩
  refine List.isChain_iff_pairwise.mp ((List.isChain_map _).mpr ?_)
  refine (course.follows placed).imp fun v w before => ?_
  rcases before with ⟨-, -, next⟩ | ⟨-, same⟩
  · exact Int.le_of_lt (next ▸ Int.lt_succ v.day.number)
  · exact same ▸ Int.le_refl v.day.number

theorem ended {cause : Failure} (course : Course settings state t turns (.error cause)) :
    ∃ before last, turns = before ++ [last] ∧ Broken settings last.state last.events cause := by
  generalize ends : (.error cause : Outcome State) = result at course
  induction course with
  | rests state t => cases ends
  | @ends state t u events cause' leads =>
    cases ends
    refine ⟨[], _, rfl, ?_⟩
    cases state with
    | lookUp =>
      obtain ⟨_, -, ⟨_, -, same⟩ | ⟨_, same, broken⟩⟩ := lookUp_runs leads.runs
      · cases same
      · cases same
        exact broken
    | attempt day =>
      obtain ⟨_, _, _, -, -, -, same⟩ | ⟨_, _, _, -, -, -, same⟩ | ⟨_, same, broken⟩ :=
        attempt_runs leads
      · cases same
      · cases same
      · cases same
        exact broken
  | goes leads others ih =>
    obtain ⟨before, last, rfl, broken⟩ := ih ends
    exact ⟨_ :: before, last, rfl, broken⟩

end Course

end Follow
end ValidatorDays
