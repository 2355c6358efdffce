import Mathlib
import ValidatorDays.Command.Run
import ValidatorDays.Proofs.Chart.Writing

namespace ValidatorDays.Follow

open Program

variable {settings : Settings} {day : Day} {status : DayStatus} {result : Outcome State}
  {exported chart rest : List Event}

/-- The question whether the series is there was refused, or its export broke off with a fault. -/
def HeldUp (settings : Settings) (day : Day) (chart : List Event) : Prop :=
  (∃ cause, chart = [⟨.query (.chartDayExported day), .error cause⟩]) ∨
  ∃ rest fault, chart = ⟨.query (.chartDayExported day), .ok false⟩ :: rest ∧
    Runs (ChartSeries.write settings day) rest (.error (.fault fault))

theorem heldUp_export {writes : List Event} {made : Outcome (List ChartPoint)}
    (run : Runs (ChartSeries.write settings day) writes made) :
    HeldUp settings day (⟨.query (.chartDayExported day), .ok false⟩ :: writes) ↔
      ∃ fault, made = .error (.fault fault) := by
  constructor
  · rintro (⟨cause, same⟩ | ⟨rest, fault, same, faulty⟩)
    · cases same
    · cases same
      obtain ⟨-, -, ended⟩ := run.unique faulty (rfl : writes ++ [] = writes ++ [])
      exact ⟨fault, ended⟩
  · rintro ⟨fault, rfl⟩
    exact .inr ⟨writes, fault, rfl, run⟩

/-- What goes wrong with the series is passed over, unless it is a fault. -/
def passedOver : Outcome (List ChartPoint) → Outcome Unit
  | .error (.fault fault) => .error (.fault fault)
  | _ => .ok ()

theorem exportChart_runs {writes : List Event} {made : Outcome (List ChartPoint)}
    (own : Runs (ChartSeries.write settings day) writes made) :
    Runs (exportChartIfMissing settings day) (⟨.query (.chartDayExported day), .ok false⟩ :: writes)
      (passedOver made) := by
  have question : Runs (mapFailure .asReport (query (.chartDayExported day)))
      [⟨.query (.chartDayExported day), .ok false⟩] (.ok false) :=
    .ask (r := .query (.chartDayExported day)) (.ok false) (.done _)
  refine runs_bind.mpr (.inl ⟨_, _, writes, rfl, question, runs_bind.mpr (.inl
    ⟨writes, made, [], (List.append_nil _).symm, runs_attempt.mpr ⟨_, own, rfl⟩, ?_⟩)⟩)
  cases made with
  | ok points => exact .done ()
  | error cause =>
    cases cause with
    | fault fault => exact .fail _
    | _ => exact .done ()

theorem exportChart_fails_iff {ended : Outcome Unit}
    (run : Runs (exportChartIfMissing settings day) chart ended) :
    HeldUp settings day chart ↔ ∃ cause, ended = .error cause := by
  obtain ⟨_, there, rest, rfl, asked, onward⟩ | ⟨cause, failed, rfl⟩ := runs_bind.mp run
  · obtain rfl := asked.mapFailure_ok.query_ok
    cases there with
    | true =>
      cases onward
      apply iff_of_false _ nofun
      rintro (⟨cause, same⟩ | ⟨rest, fault, same, -⟩)
      · cases same
      · cases same
    | false =>
      obtain ⟨writes, made, after, rfl, trying, told⟩ | ⟨_, failed, -⟩ := runs_bind.mp onward
      · obtain ⟨_, own, same⟩ := runs_attempt.mp trying
        cases same
        -- The failures that are not faults are told and then passed over.
        have ends : after = [] ∧
            ((∃ fault, made = .error (.fault fault)) ↔ ∃ cause, ended = .error cause) := by
          cases made with
          | ok points =>
            cases told
            exact ⟨rfl, iff_of_false nofun nofun⟩
          | error cause =>
            cases cause with
            | fault fault =>
              cases told
              exact ⟨rfl, iff_of_true ⟨fault, rfl⟩ ⟨_, rfl⟩⟩
            | _ =>
              cases told
              exact ⟨rfl, iff_of_false nofun nofun⟩
        obtain ⟨rfl, same⟩ := ends
        rw [List.append_nil, List.singleton_append, heldUp_export own]
        exact same
      · obtain ⟨_, -, impossible⟩ := runs_attempt.mp failed
        cases impossible
  · refine iff_of_true (.inl ?_) ⟨cause, rfl⟩
    obtain ⟨inner, asked, same⟩ := runs_mapFailure.mp failed
    cases asked with
    | ask answer told =>
      cases answer with
      | error cause =>
        cases told
        exact ⟨cause, rfl⟩
      | ok there =>
        cases told
        cases same

theorem run_add (settings : Settings) (steps more : Nat) (state : State) :
    Follow.run settings (steps + more) state =
      (Follow.run settings steps state).bind (Follow.run settings more) := by
  induction steps generalizing state with
  | zero =>
    rw [Nat.zero_add]
    rfl
  | succ n ih =>
    rw [Nat.succ_add]
    show (step settings state).bind (Follow.run settings (n + more)) =
      ((step settings state).bind (Follow.run settings n)).bind (Follow.run settings more)
    rw [bind_assoc]
    exact congrArg _ (funext ih)

/-- After the export of a day comes the step that brings its chart series, and then the next day. -/
theorem runs_exported {steps : Nat}
    (exporting : Runs (exportDay settings day) exported (.ok status)) :
    Runs (Follow.run settings (steps + 1) (.attempt day)) (exported ++ rest) result ↔
      Runs ((exportChartIfMissing settings day).bind fun _ => Follow.run settings steps .lookUp)
        rest result := by
  have turn : Follow.run settings (steps + 1) (.attempt day) =
      (exportDay settings day).attempt.bind _ := bind_assoc _ _ (Follow.run settings steps)
  have onward : (exportChartIfMissing settings day).bind
        (fun _ => Follow.run settings steps .lookUp) =
      ((exportChartIfMissing settings day).bind fun _ => .done .lookUp).bind
        (Follow.run settings steps) :=
    (bind_assoc _ (fun _ => .done State.lookUp) (Follow.run settings steps)).symm
  rw [turn, onward]
  constructor
  · intro run
    obtain ⟨first, made, others, split, trying, later⟩ | ⟨_, failed, -⟩ := runs_bind.mp run
    · obtain ⟨_, own, same⟩ := runs_attempt.mp trying
      cases same
      obtain ⟨-, rfl, same⟩ := exporting.unique own split
      cases same
      exact later
    · obtain ⟨_, -, impossible⟩ := runs_attempt.mp failed
      cases impossible
  · intro run
    have trying := runs_attempt.mpr ⟨_, exporting, rfl⟩
    exact runs_bind.mpr (.inl ⟨exported, _, rest, rfl, trying, run⟩)

theorem lookUp_asks {steps : Nat} (positive : 0 < steps)
    (run : Runs (Follow.run settings steps .lookUp) rest result) :
    ∃ answer later, rest = ⟨.query .lastExportedDay, answer⟩ :: later := by
  cases steps with
  | zero => cases positive
  | succ n =>
    cases run with
    | ask answer later => exact ⟨answer, _, rfl⟩

/-- Wherever a run of the command has come to a day and exported it, the step that brings the chart
series follows. If the question whether the series is there is refused, or if the export of the
series breaks off with a fault, the command ends there. Otherwise, whatever else goes wrong, it goes
on, and the next thing it asks for is the last exported day. -/
theorem goes_on_unless_held_up {steps more : Nat} {before : List Event}
    (reached : Runs (Follow.run settings steps .lookUp) before (.ok (.attempt day)))
    (exporting : Runs (exportDay settings day) exported (.ok status))
    (run : Runs (Follow.run settings (steps + (more + 1)) .lookUp) (before ++ (exported ++ rest))
      result) :
    ∃ chart after ended, rest = chart ++ after ∧
      Runs (exportChartIfMissing settings day) chart ended ∧
      (HeldUp settings day chart → after = [] ∧ ∃ cause, result = .error cause) ∧
      (¬ HeldUp settings day chart → Runs (Follow.run settings more .lookUp) after result ∧
        (0 < more → ∃ answer later, after = ⟨.query .lastExportedDay, answer⟩ :: later)) := by
  rw [run_add] at run
  obtain ⟨first, state, others, split, own, onward⟩ | ⟨cause, failed, -⟩ := runs_bind.mp run
  · obtain ⟨rfl, rfl, same⟩ := reached.unique own split
    cases same
    obtain ⟨chart, _, after, rfl, charting, later⟩ | ⟨cause, charting, rfl⟩ :=
      runs_bind.mp ((runs_exported exporting).mp onward)
    · have free : ¬ HeldUp settings day chart := (exportChart_fails_iff charting).not.mpr nofun
      exact ⟨chart, after, .ok (), rfl, charting, fun held => absurd held free,
        fun _ => ⟨later, fun positive => lookUp_asks positive later⟩⟩
    · have held : HeldUp settings day rest := (exportChart_fails_iff charting).mpr ⟨cause, rfl⟩
      exact ⟨rest, [], .error cause, (List.append_nil rest).symm, charting,
        fun _ => ⟨rfl, cause, rfl⟩, fun free => absurd held free⟩
  · have split : before ++ (exported ++ rest) = (before ++ (exported ++ rest)) ++ [] :=
      (List.append_nil _).symm
    obtain ⟨-, -, impossible⟩ := reached.unique failed split
    cases impossible

/-- The first day has all its statistics, but nobody has finished it. -/
def unfinished : StatusTable := StatusTable.empty.put .genesis (some ⟨false, fun _ => true⟩)

theorem exports_calm (settings : Settings) (day : Day) (t : StatusTable) (check : Event → Bool)
    (well : ((exportDay settings day).observe (Books.calm 0) (.opened t)).2.toBool = true)
    (checked : ((exportDay settings day).observe (Books.calm 0) (.opened t)).1.all check = true) :
    ∃ exported status, Runs (exportDay settings day) exported (.ok status) ∧
      (Books.opened t).Agrees exported ∧ ∀ e ∈ exported, check e = true := by
  have run := runs_observe (Books.calm 0) (exportDay settings day) (.opened t)
  have agrees := (Books.calm_honest 0).agrees (exportDay settings day) (.opened t)
  generalize (exportDay settings day).observe (Books.calm 0) (.opened t) = observed
    at run agrees well checked
  obtain ⟨exported, cause | status⟩ := observed
  · cases well
  · exact ⟨exported, status, run, agrees, List.all_eq_true.mp checked⟩

theorem exports_unfinished : ∃ exported status,
    Runs (exportDay .standard .genesis) exported (.ok status) := by
  obtain ⟨exported, status, run, -⟩ :=
    exports_calm .standard .genesis unfinished (fun _ => true) (by cbv) (by cbv)
  exact ⟨exported, status, run⟩

theorem reaches_genesis (settings : Settings) : Runs (Follow.run settings 1 .lookUp)
    [⟨.query .lastExportedDay, .ok none⟩] (.ok (.attempt .genesis)) :=
  .ask (r := .query .lastExportedDay) (.ok none) (.done _)

/-- The first day has been exported, and then nobody can say whether its chart series is there. That
ends the command. -/
theorem held_up_by_question : ∃ exported status,
    Runs (exportDay .standard .genesis) exported (.ok status) ∧
      Runs (Follow.run .standard 2 .lookUp)
        ([⟨.query .lastExportedDay, .ok none⟩] ++
          (exported ++ [⟨.query (.chartDayExported .genesis), .error (.refused "boom")⟩]))
        (.error (.report ⟨["error returned from database: boom", "boom"]⟩)) := by
  obtain ⟨exported, status, exporting⟩ := exports_unfinished
  have refused : Runs (exportChartIfMissing .standard .genesis)
      [⟨.query (.chartDayExported .genesis), .error (.refused "boom")⟩]
      (.error (.report ⟨["error returned from database: boom", "boom"]⟩)) :=
    .ask (r := .query (.chartDayExported .genesis)) (.error (.refused "boom")) (.fail _)
  refine ⟨exported, status, exporting, ?_⟩
  rw [run_add .standard 1 1]
  refine runs_bind.mpr (.inl ⟨_, _, _, rfl, reaches_genesis _, ?_⟩)
  exact (runs_exported exporting).mpr (runs_bind.mpr (.inr ⟨_, refused, rfl⟩))

theorem series_fails : Runs (ChartSeries.write .standard .genesis)
    [⟨.query (.finalizedEpochs ⟨⟨-113⟩, ⟨111⟩⟩), .error (.refused "boom")⟩]
    (.error (.stage (.notPersisted (.refused "boom")))) := by
  have made : ChartWindow.ofDay .genesis =
      .ok ⟨.genesis, ⟨1606780800000000000⟩, ⟨-3616⟩, ⟨3584⟩, ⟨⟨-113⟩, ⟨111⟩⟩⟩ := by cbv
  have refused : Runs (readStage (.finalizedEpochs ⟨⟨-113⟩, ⟨111⟩⟩))
      [⟨.query (.finalizedEpochs ⟨⟨-113⟩, ⟨111⟩⟩), .error (.refused "boom")⟩]
      (.error (.stage (.notPersisted (.refused "boom")))) :=
    .ask (r := .query (.finalizedEpochs ⟨⟨-113⟩, ⟨111⟩⟩)) (.error (.refused "boom")) (.fail _)
  rw [ChartSeries.write_begins made]
  exact runs_bind.mpr (.inr ⟨_, runs_bind.mpr (.inr ⟨_, refused, rfl⟩), rfl⟩)

/-- The first day has been exported, and its series fails. The next day is looked up all the
same. -/
theorem goes_on_unless_held_up_failed_series :
    ∃ exported status writes cause, Runs (exportDay .standard .genesis) exported (.ok status) ∧
      Runs (ChartSeries.write .standard .genesis) writes (.error (.stage cause)) ∧
      Runs (Follow.run .standard (1 + (1 + 1)) .lookUp)
        ([⟨.query .lastExportedDay, .ok none⟩] ++ (exported ++
          (⟨.query (.chartDayExported .genesis), .ok false⟩ :: writes ++
            [⟨.query .lastExportedDay, .ok none⟩]))) (.ok (.attempt .genesis)) ∧
      Runs (Follow.run .standard 1 .lookUp) [⟨.query .lastExportedDay, .ok none⟩]
        (.ok (.attempt .genesis)) := by
  obtain ⟨exported, status, exporting⟩ := exports_unfinished
  have charting := exportChart_runs series_fails
  have turn := (runs_exported exporting).mpr
    (runs_bind.mpr (.inl ⟨_, _, _, rfl, charting, reaches_genesis _⟩))
  have run := runs_bind.mpr (.inl ⟨_, _, _, rfl, reaches_genesis .standard, turn⟩)
  rw [← run_add] at run
  obtain ⟨chart, after, ended, split, own, -, goesOn⟩ :=
    goes_on_unless_held_up (reaches_genesis _) exporting run
  obtain ⟨rfl, rfl, -⟩ := charting.unique own split
  have free : ¬ HeldUp .standard .genesis _ := (heldUp_export series_fails).not.mpr nofun
  exact ⟨exported, status, _, _, exporting, series_fails, run, (goesOn free).1⟩

end ValidatorDays.Follow
