import ValidatorDays.Proofs.Stage.Resumption
import ValidatorDays.Proofs.Work.Issued

namespace ValidatorDays

open Program

namespace Program

variable {α β : Type}

/-- Whatever the answers, no report of others is passed on as it is. -/
structure NoReport (p : Program α) : Prop where
  anywhere : ∀ seen, p.Keeps (fun _ _ => True) (fun _ _ => True)
    (fun _ cause => ∀ report, cause ≠ .report report) seen

namespace NoReport

theorem done (a : α) : (Program.done a).NoReport := ⟨fun _ => trivial⟩

theorem staged (e : StageError) : (Program.fail (.stage e) : Program α).NoReport :=
  ⟨fun _ _ => nofun⟩

theorem bind {p : Program α} {f : α → Program β} (first : p.NoReport) (next : ∀ a, (f a).NoReport) :
    (p.bind f).NoReport :=
  ⟨fun seen => (first.anywhere seen).bind fun h a _ => (next a).anywhere h⟩

theorem both {p : Program α} {q : Program β} (first : p.NoReport) (second : q.NoReport) :
    (p.both q).NoReport := by
  refine ⟨fun seen => ?_⟩
  refine ((first.anywhere seen).both (second.anywhere []) (.alone seen)).mono
    (fun _ _ _ => trivial) (fun _ _ _ => trivial) ?_
  rintro _ cause ⟨_, _, -, unreported⟩
  exact unreported.elim id id

theorem ask {r : Request} {next : r.Answer → Program α}
    (others : ∀ answer, (next answer).NoReport) :
    (Program.ask r next).NoReport :=
  ⟨fun _ => ⟨trivial, fun answer => (others answer).anywhere _⟩⟩

theorem outcome {o : Outcome α} (reason : ∀ report, o ≠ .error (.report report)) :
    (ofOutcome o).NoReport := by
  refine ⟨fun seen => ?_⟩
  rw [keeps_ofOutcome]
  cases o with
  | ok a => trivial
  | error cause => exact fun report same => reason report (congrArg _ same)

theorem checked (c : Checked α) : (ofOutcome (.ofChecked c)).NoReport := by
  apply outcome
  cases c <;> exact fun _ => nofun

theorem ofStage (c : Except StageError α) : (ofOutcome (.ofStage c)).NoReport := by
  apply outcome
  cases c <;> exact fun _ => nofun

theorem ofDatabase (answer : Except DatabaseError α) : (Program.ofDatabase answer).NoReport := by
  cases answer with
  | ok a => exact done a
  | error e => exact ⟨fun _ _ => nofun⟩

theorem query (q : Query) : (Program.query q).NoReport := ask .ofDatabase

theorem write (w : Write) : (Program.write w).NoReport := (checked _).bind fun _ => ask .ofDatabase

theorem asStage {p : Program α} (told : p.NoReport) : (p.mapFailure .asStage).NoReport := by
  refine ⟨fun seen => (keeps_mapFailure _ _ _).mpr ?_⟩
  refine (told.anywhere seen).mono (fun _ _ => id) (fun _ _ => id) ?_
  intro _ cause unreported report
  cases cause with
  | report r => exact absurd rfl (unreported r)
  | _ => exact nofun

theorem asAggregation (p : Program α) : (p.mapFailure .asAggregation).NoReport := by
  refine ⟨fun seen => (keeps_mapFailure _ _ _).mpr ?_⟩
  induction p generalizing seen with
  | done a => trivial
  | fail cause => cases cause <;> exact fun _ => nofun
  | ask r next ih => exact ⟨trivial, fun answer => ih answer _⟩

theorem group {A ρ : Type} {carrier : Carrier A ρ} (start : ∀ a, (carrier.start a).NoReport)
    (poll : ∀ underWay, (carrier.poll underWay).NoReport)
    (await : ∀ underWay, (carrier.await underWay).NoReport) (g : Group) (jobs : List (Job A)) :
    (g.run carrier jobs).NoReport := by
  have look (underWay : List A) : (carrier.answered underWay).NoReport := by
    cases underWay with
    | nil => exact done none
    | cons a others => exact poll (a :: others)
  exact ⟨Group.run_plain (fun _ _ => nofun) (fun h a => (start a).anywhere h)
    (fun h underWay => (look underWay).anywhere h) (fun h underWay => (await underWay).anywhere h)
    g jobs⟩

theorem writes (g : Group) (jobs : List (Job Write)) : (g.run .writes jobs).NoReport :=
  group (fun w => (checked w.bound).bind fun _ => ask .done) (fun _ => ask fun _ => done _)
    (fun _ => ask fun _ => done _) g jobs

theorem fetches (g : Group) (jobs : List (Job EpochRange)) : (g.run .fetches jobs).NoReport :=
  group (fun _ => ask .done) (fun _ => ask fun _ => done _) (fun _ => ask fun _ => done _) g jobs

theorem together (ws : List Write) : (writeTogether ws).NoReport := by
  apply asStage
  refine (ask .ofDatabase : Program.begin.NoReport).bind fun _ => ?_
  refine bind ?_ fun _ => ask .ofDatabase
  induction ws with
  | nil => exact done ()
  | cons w others ih => exact (write w).bind fun _ => ih

theorem mergeRows (g : Group) (t : Target) (rows : List Row) (batchSize : Nat) :
    (ValidatorDays.mergeRows g t rows batchSize).NoReport :=
  (ofStage _).bind fun _ => (writes g _).bind fun _ => done _

theorem mergeRowsTogether (t : Target) (rows : List Row) (batchSize : Nat) :
    (ValidatorDays.mergeRowsTogether t rows batchSize).NoReport := by
  refine (ofStage _).bind fun batches => ?_
  split
  · exact done 0
  · exact (together _).bind fun _ => done _

end NoReport
end Program

namespace Stage

theorem status_noReport (day : Day) : (statusOf day).NoReport :=
  (NoReport.query _).bind fun _ => .done _

theorem gate_noReport (day : Day) : (ensureDayFinalized day).NoReport :=
  (NoReport.query _).asStage.bind fun _ => .ofStage _

theorem required_noReport (day : Day) (rs : Requirements) : (ensureExported day rs).NoReport := by
  have missing : (missingExports rs).NoReport := by
    induction rs with
    | nil => exact .done []
    | cons r others ih => exact (status_noReport r.1).bind fun _ => ih.bind fun _ => .done _
  refine missing.asStage.bind fun names => ?_
  split
  · exact .done ()
  · exact .staged _

theorem write_noReport (w : Write) : (writeStage w).NoReport := (NoReport.write w).asStage

theorem read_noReport (q : Query) : (readStage q).NoReport := (NoReport.query q).asStage

theorem transfers_noReport (settings : Settings) (day : Day) :
    (Transfers.stage settings day).NoReport := by
  refine (gate_noReport day).bind fun _ => (NoReport.checked _).bind fun range => ?_
  refine (NoReport.checked _).bind fun (first, stop) => ?_
  refine ((read_noReport _).both (read_noReport _)).bind fun (deposits, withdrawals) => ?_
  refine (NoReport.ofStage _).bind fun _ => (NoReport.ofStage _).bind fun _ => ?_
  split
  · exact write_noReport _
  · exact (NoReport.together _).bind fun _ => write_noReport _

theorem byProposer_noReport (canonical : List CanonicalBlock) (blocks : List BlockReward)
    (bribes : ExecutionRewards.Bribes) :
    (ofOutcome (ExecutionRewards.byProposer canonical blocks bribes)).NoReport := by
  refine NoReport.outcome fun report failed => ?_
  exact (byProposer_isOwn canonical blocks bribes _ failed).2

theorem exportCategory_noReport (settings : Settings) (day : Day) (category : Category) :
    (exportCategory settings day category).NoReport := by
  have gate := gate_noReport day
  cases category with
  | failedAttestations =>
    refine gate.bind fun _ => (NoReport.checked _).bind fun _ => ?_
    refine (NoReport.fetches _ _).bind fun _ => ?_
    exact (NoReport.checked _).bind fun _ => (NoReport.mergeRows ..).bind fun _ => write_noReport _
  | syncDuties =>
    exact gate.bind fun _ => (NoReport.asAggregation _).bind fun _ =>
      (NoReport.mergeRowsTogether ..).bind fun _ => write_noReport _
  | withdrawalsDeposits => exact transfers_noReport settings day
  | blockStats =>
    refine gate.bind fun _ => ((read_noReport _).both (read_noReport _)).bind fun _ => ?_
    refine (NoReport.mergeRows ..).bind fun _ => ?_
    exact (NoReport.mergeRows ..).bind fun _ => write_noReport _
  | balance =>
    exact gate.bind fun _ => (NoReport.asAggregation _).bind fun _ =>
      (NoReport.mergeRows ..).bind fun _ => write_noReport _
  | consensusRewards =>
    refine gate.bind fun _ => (NoReport.checked _).bind fun _ => ?_
    refine (required_noReport day _).bind fun _ => ?_
    refine (NoReport.asAggregation _).bind fun _ => (NoReport.checked _).bind fun _ => ?_
    refine (NoReport.checked _).bind fun _ => (read_noReport _).bind fun _ => ?_
    exact (NoReport.ofStage _).bind fun _ => (NoReport.writes ..).bind fun _ => write_noReport _
  | executionRewards =>
    refine gate.bind fun _ => (read_noReport _).bind fun _ => ?_
    refine (NoReport.asAggregation _).bind fun _ => ?_
    refine (NoReport.asAggregation _).bind fun _ => (byProposer_noReport ..).bind fun _ => ?_
    exact (NoReport.mergeRowsTogether ..).bind fun _ => write_noReport _
  | totalPerformance =>
    refine gate.bind fun _ => (NoReport.checked _).bind fun _ => ?_
    refine (required_noReport day _).bind fun _ => ?_
    refine (read_noReport _).bind fun _ => (NoReport.writes ..).bind fun _ => ?_
    exact (write_noReport _).bind fun _ => write_noReport _

end Stage

theorem closeDay_noReport (day : Day) : (closeDay day).NoReport := by
  have commits (complete : Bool) : (Program.commit.bind fun _ => .done complete).NoReport :=
    (NoReport.ask .ofDatabase).bind fun _ => .done complete
  have finishes : (finishDay day).NoReport := by
    refine (NoReport.ask .ofDatabase).bind fun _ => (NoReport.query _).bind fun row => ?_
    cases row with
    | none => exact commits false
    | some status =>
      simp only
      split
      · split
        · exact (NoReport.write _).bind fun _ => commits true
        · exact commits true
      · exact commits false
  refine finishes.bind fun finished => ?_
  cases finished with
  | true => exact .done ()
  | false => exact (Stage.status_noReport day).bind fun _ => .staged _

theorem DayStep.work_noReport (settings : Settings) (day : Day) (step : DayStep) :
    (step.work settings day).NoReport := by
  cases step with
  | read | report => exact (Stage.status_noReport day).asStage.bind fun _ => .done ()
  | gate => exact (Stage.gate_noReport day).asStage
  | stage category => exact (Stage.exportCategory_noReport settings day category).asStage
  | finish => exact (closeDay_noReport day).asStage

section Attempt

variable {settings : Settings} {day : Day} {t u : StatusTable} {trace : List Event}

theorem Attempt.finishes {final : DayStatus}
    (attempt : Attempt settings day t trace (.ok final) u) (d : Day) :
    u.Finished d ↔ t.Finished d ∨ d = day := by
  obtain ⟨journal, taken, rfl⟩ := attempt.journal
  have finished := (taken_leaves taken attempt.agrees).2.1 d
  rw [attempt.leaves] at finished
  constructor
  · exact fun there => (finished.mp there).imp_right And.left
  · rintro (before | rfl)
    · exact finished.mpr (.inl before)
    · exact attempt.completes.1

/-- The step by which an export failed was its last, and what it came to is what the export came
to. -/
theorem Attempt.failed {cause : Failure} (attempt : Attempt settings day t trace (.error cause) u) :
    ∃ before last, Taken (DayStep.work settings day) (t.status day).plan (before ++ [last])
        (.error cause) ∧ trace = (before ++ [last]).flatMap Entry.events ∧
      last.outcome = .error cause ∧
      Runs (last.step.work settings day) last.events (.error cause) := by
  obtain ⟨journal, taken, same⟩ := attempt.journal
  obtain ⟨before, last, rfl, failed, -⟩ := taken.of_error
  have run := taken.entry_runs last (by simp)
  rw [failed] at run
  exact ⟨before, last, taken, same, failed, run⟩

theorem Attempt.fails {cause : Failure}
    (attempt : Attempt settings day t trace (.error cause) u) :
    (∃ e, cause = .stage e) ∨ ∃ fault, cause = .fault fault := by
  obtain ⟨before, last, -, -, -, run⟩ := attempt.failed
  have told := Keeps.ends ((last.step.work_noReport settings day).anywhere []) run
  obtain ⟨inner, -, same⟩ := runs_mapFailure.mp attempt.runs
  cases inner with
  | ok status => cases same
  | error first =>
    cases same
    cases first with
    | fault fault => exact .inr ⟨fault, rfl⟩
    | database e => exact .inl ⟨_, rfl⟩
    | stage e => exact .inl ⟨e, rfl⟩
    | report report => exact absurd rfl (told report)

theorem Attempt.finished_of_retryable {e : StageError} (again : e.isRetryable = true)
    (attempt : Attempt settings day t trace (.error (.stage e)) u) (d : Day) :
    u.Finished d ↔ t.Finished d := by
  obtain ⟨before, last, taken, same, failed, run⟩ := attempt.failed
  have finished := (taken_leaves taken (same ▸ attempt.agrees)).2.1 d
  rw [← same, attempt.leaves] at finished
  rw [finished]
  apply or_iff_left
  rintro ⟨-, closing, member, isFinish, well⟩
  have earlier : closing ∈ before := by
    rcases List.mem_append.mp member with earlier | now
    · exact earlier
    · cases List.mem_singleton.mp now
      cases failed.symm.trans well
  -- Then only the status was left to read, and a refused statement does not pass.
  rw [reports_once_finished taken earlier isFinish] at run
  obtain ⟨_, _, _, _, _, ends⟩ | ⟨cause, reads, same⟩ := runs_bind.mp run
  · cases ends
  · cases same
    obtain ⟨_, -, well⟩ | ⟨refusal, -, told⟩ := runs_readStatus reads
    · cases well
    · cases told
      cases again

end Attempt
end ValidatorDays
