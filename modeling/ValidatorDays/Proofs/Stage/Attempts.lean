import ValidatorDays.Proofs.Stage.Conduct
import ValidatorDays.Proofs.Stage.Steps
import ValidatorDays.Proofs.Status.Books
/-! Exports that have the table of statuses to themselves: what each step leaves in the table when
it goes well, that it leaves the table alone when it fails, and what it can fail by. -/
namespace ValidatorDays

open Program

/-- A run of an export from one table to another. It may end anywhere; a transaction that is open
then is lost. -/
structure Attempt (settings : Settings) (day : Day) (t : StatusTable) (trace : List Event)
    (result : Outcome DayStatus) (u : StatusTable) : Prop where
  runs : Runs (exportDay settings day) trace result
  agrees : (Books.opened t).Agrees trace
  leaves : ((Books.opened t).afterAll trace).table = u

def Settings.oneWindow : Settings := { Settings.standard with attestationEpochs := epochsPerDay }

def StatusTable.given (t : StatusTable) (answer : StatusTable → (r : Request) → r.Answer)
    (settings : Settings) (day : Day) : StatusTable :=
  let trace := ((exportDay settings day).observe (Books.kept answer) (.opened t)).1
  ((Books.opened t).afterAll trace).table

theorem attempt_given {answer : StatusTable → (r : Request) → r.Answer}
    (honest : Books.Honest answer) (settings : Settings) (day : Day) (t : StatusTable) :
    ∃ trace result, Attempt settings day t trace result (t.given answer settings day) :=
  ⟨_, _, runs_observe (Books.kept answer) _ _, honest.agrees _ _, rfl⟩

def DayStep.effect (day : Day) (t : StatusTable) : DayStep → StatusTable
  | .stage category => t.write (.markExported day category)
  | .finish => t.write (.setFinished day)
  | .read | .gate | .report => t

def DayStep.Ready (day : Day) (t : StatusTable) : DayStep → Prop
  | .stage category =>
    ∀ rs, requirementsOf day category = .ok rs → ∀ r ∈ rs, t.Exported r.1 r.2
  | .finish => (t.status day).allExported = true
  | .read | .gate | .report => True

structure Outturn (day : Day) (step : DayStep) (t : StatusTable) (events : List Event)
    (outcome : Outcome Unit) : Prop where
  well : outcome = .ok () →
    (Books.opened t).afterAll events = Books.opened (step.effect day t) ∧
      (step = .finish → (t.status day).allExported = true)
  failed : ∀ cause, outcome = .error cause → ((Books.opened t).afterAll events).table = t
  reason : ∀ cause, outcome = .error cause → step.Ready day t →
    Marred events ∨ cause.IsOwn ∨ Stage.TooFewFinal day events

namespace Stage

theorem Owns.quiet {day : Day} {category : Category} {w : Write} (owns : Owns day category w) :
    w.Quiet := by
  cases w with
  | markExported | setFinished => exact owns.elim
  | _ => trivial

theorem OwnOnly.harmless {day : Day} {category : Category} {seen : List Event}
    (ownOnly : OwnOnly day category seen) : ∀ e ∈ seen, e.Harmless :=
  fun e member => .inl fun w issued => (ownOnly e member w issued).quiet

theorem Unmarked.harmless {day : Day} {category : Category} {seen : List Event}
    (unmarked : Unmarked day category seen) : ∀ e ∈ seen, e.Harmless := by
  rcases unmarked with ownOnly | ⟨before, cause, rfl, ownOnly⟩
  · exact ownOnly.harmless
  · intro e member
    rcases List.mem_append.mp member with earlier | last
    · exact ownOnly.harmless e earlier
    · exact .inr ⟨_, cause, List.mem_singleton.mp last⟩

theorem Marked.leaves {day : Day} {category : Category} {events : List Event}
    (marked : Marked day category events) (t : StatusTable) :
    (Books.opened t).afterAll events = Books.opened (t.write (.markExported day category)) := by
  obtain ⟨before, rfl, well, ownOnly⟩ := marked
  have same : (Books.opened t).afterAll before = Books.opened t := by
    have table := ((Books.still_opened t).afterAll ownOnly.harmless).1
    have closed := ((Books.opened t).afterAll_pending before).trans well.closed
    cases after : (Books.opened t).afterAll before with
    | mk u pending =>
      rw [after] at table closed
      cases table
      cases closed
      rfl
  rw [Books.afterAll_append, same]
  rfl

theorem outturn (settings : Settings) {day : Day} {category : Category} {t : StatusTable}
    {events : List Event} {outcome : Outcome Unit}
    (run : Runs ((DayStep.stage category).work settings day) events outcome)
    (agrees : (Books.opened t).Agrees events) :
    Outturn day (.stage category) t events outcome := by
  obtain ⟨inner, own, rfl⟩ := runs_mapFailure.mp run
  have ends := (exportCategory_gated settings day category).ends own
  rw [List.nil_append] at ends
  cases inner with
  | ok _ => exact ⟨fun _ => ⟨Marked.leaves ends t, nofun⟩, nofun, nofun⟩
  | error cause =>
    obtain ⟨unmarked, told, reason⟩ : Failed day category events cause := ends
    have still := Books.still_opened t
    refine ⟨nofun, fun _ _ => (still.afterAll unmarked.harmless).1, ?_⟩
    intro cause' same ready
    have same' : cause = cause' := by
      cases same
      exact told.symm
    subst same'
    rcases reason with marred | isOwn | ⟨rs, required, r, member, row, read, lacks⟩ | short
    · exact .inl marred
    · exact .inr (.inl isOwn)
    · have there := still.reads agrees unmarked.harmless read
      have exported : ((t r.1).getD .blank).exported r.2 = true := ready rs required r member
      have gone : row = t r.1 := there
      rw [gone, exported] at lacks
      cases lacks
    · exact .inr (.inr short)

end Stage

section Steps

variable {settings : Settings} {day : Day} {t : StatusTable} {events : List Event}
  {outcome : Outcome Unit}

theorem read_outturn (run : Runs ((readStatus day).bind fun _ => .done ()) events outcome) :
    (outcome = .ok () ∨ ∃ cause, outcome = .error cause ∧ Marred events) ∧
      ∃ answer, events = [⟨.query (.status day), answer⟩] := by
  rcases runs_bind.mp run with ⟨first, _, rest, rfl, reads, ends⟩ | ⟨cause, reads, rfl⟩
  · cases ends
    rcases runs_readStatus reads with ⟨row, rfl, -⟩ | ⟨e, -, failed⟩
    · exact ⟨.inl rfl, _, rfl⟩
    · cases failed
  · rcases runs_readStatus reads with ⟨row, -, well⟩ | ⟨e, rfl, -⟩
    · cases well
    · exact ⟨.inr ⟨cause, rfl, marred_last [] id⟩, _, rfl⟩

theorem gate_outturn (run : Runs ((ensureDayFinalized day).mapFailure .asStage) events outcome) :
    (outcome = .ok () ∨
        ∃ cause, outcome = .error cause ∧ (Marred events ∨ Stage.TooFewFinal day events)) ∧
      ∃ answer, events = [⟨Stage.gate day, answer⟩] := by
  obtain ⟨inner, own, rfl⟩ := runs_mapFailure.mp run
  cases own with
  | ask answer rest =>
    cases answer with
    | error e =>
      cases rest
      exact ⟨.inr ⟨_, rfl, .inl (marred_last [] id)⟩, _, rfl⟩
    | ok n =>
      change Runs (ofOutcome (.ofStage (checkFinalized day n))) _ _ at rest
      by_cases tooFew : n < epochsPerDay
      · rw [checkFinalized, if_pos tooFew] at rest
        cases rest
        exact ⟨.inr ⟨_, rfl, .inr ⟨n, List.mem_singleton_self _, tooFew⟩⟩, _, rfl⟩
      · rw [checkFinalized, if_neg tooFew] at rest
        cases rest
        exact ⟨.inl rfl, _, rfl⟩

theorem write_finished {status : DayStatus} (row : t day = some status)
    (finished : status.finished = true) : t.write (.setFinished day) = t := by
  funext d
  by_cases same : d = day
  · subst same
    rw [StatusTable.write, StatusTable.put_same, row, Option.map_some, DayStatus.finish, ← finished]
  · exact t.put_other _ same

/-- A transaction leaves that table, unless an answer is a failure. Then it leaves the old one. -/
def Transacts (b : Books) (u : StatusTable) (complete : Bool) (events : List Event)
    (result : Outcome Bool) : Prop :=
  (result = .ok complete ∧ b.afterAll events = Books.opened u) ∨
    ∃ cause, result = .error cause ∧ Marred events ∧ (b.afterAll events).table = b.table

theorem Transacts.cons {b : Books} {u : StatusTable} {complete : Bool} {result : Outcome Bool}
    {e : Event} (transacts : Transacts (b.after e) u complete events result)
    (same : (b.after e).table = b.table) : Transacts b u complete (e :: events) result := by
  rcases transacts with well | ⟨cause, failed, marred, table⟩
  · exact .inl well
  · exact .inr ⟨cause, failed, marred.behind [e], table.trans same⟩

theorem commits_outturn (t : StatusTable) (writes : List Write) {complete : Bool}
    {result : Outcome Bool}
    (run : Runs (Program.commit.bind fun _ => .done complete) events result) :
    Transacts ⟨t, some writes⟩ (t.writeAll writes) complete events result := by
  cases run with
  | ask answer rest =>
    cases answer with
    | ok _ =>
      cases rest
      exact .inl ⟨rfl, rfl⟩
    | error e =>
      cases rest
      exact .inr ⟨_, rfl, marred_last [] id, rfl⟩

theorem finishDay_outturn {result : Outcome Bool} (run : Runs (finishDay day) events result)
    (agrees : (Books.opened t).Agrees events) : Transacts (.opened t)
      (if (t.status day).allExported then t.write (.setFinished day) else t)
      (t.status day).allExported events result := by
  cases run with
  | ask answer rest =>
  cases answer with
  | error e =>
    cases rest
    exact .inr ⟨_, rfl, marred_last [] id, rfl⟩
  | ok _ =>
  cases rest with
  | ask answer rest =>
  refine Transacts.cons ?_ rfl
  match answer with
  | .error e =>
    cases rest
    exact .inr ⟨_, rfl, marred_last [] id, rfl⟩
  | .ok row =>
    have found : row = t day := agrees.2.1
    refine Transacts.cons ?_ rfl
    cases stored : t day with
    | none =>
      cases found.trans stored
      have blank : (t.status day).allExported = false := by
        rw [StatusTable.status, stored]
        rfl
      rw [blank]
      exact commits_outturn t [] rest
    | some status =>
      cases found.trans stored
      have same : t.status day = status := by
        rw [StatusTable.status, stored]
        rfl
      rw [same]
      cases all : status.allExported with
      | false =>
        simp only [ofDatabase, Program.bind, all] at rest
        exact commits_outturn t [] rest
      | true =>
        cases finished : status.finished with
        | true =>
          simp only [ofDatabase, Program.bind, all, finished] at rest
          rw [if_pos rfl, write_finished stored finished]
          exact commits_outturn t [] rest
        | false =>
          simp only [ofDatabase, Program.bind, all, finished] at rest
          cases rest with
          | ask answer rest =>
            cases answer with
            | ok _ =>
              refine Transacts.cons ?_ rfl
              exact commits_outturn t [.setFinished day] rest
            | error e =>
              cases rest
              exact .inr ⟨_, rfl, marred_last [] id, rfl⟩

theorem closeDay_outturn (run : Runs ((DayStep.finish).work settings day) events outcome)
    (agrees : (Books.opened t).Agrees events) : Outturn day .finish t events outcome := by
  obtain ⟨inner, own, rfl⟩ := runs_mapFailure.mp run
  rcases runs_bind.mp own with
    ⟨first, finished, rest, rfl, transaction, others⟩ | ⟨cause, fails, rfl⟩
  · have outturn := finishDay_outturn transaction ((Books.agrees_append ..).mp agrees).1
    rcases outturn with ⟨same, after⟩ | ⟨cause, failed, -⟩
    · cases same
      cases all : (t.status day).allExported with
      | true =>
        rw [all] at others after
        cases others
        refine ⟨fun _ => ⟨?_, fun _ => all⟩, nofun, nofun⟩
        rw [List.append_nil]
        exact after
      | false =>
        rw [all] at others after
        -- The day stays as it is; what is missing is read once more, for the message.
        have missing : (∃ cause, inner = .error cause) ∧
            ((Books.opened t).afterAll rest).table = t := by
          cases others with
          | ask answer told =>
            cases answer <;> cases told <;> exact ⟨⟨_, rfl⟩, rfl⟩
        obtain ⟨⟨cause, rfl⟩, table⟩ := missing
        refine ⟨nofun, fun _ _ => ?_, fun _ _ ready => ?_⟩
        · rw [Books.afterAll_append, after]
          exact table
        · rw [DayStep.Ready, all] at ready
          cases ready
    · cases failed
  · rcases finishDay_outturn fails agrees with ⟨same, -⟩ | ⟨cause', -, marred, table⟩
    · cases same
    · exact ⟨nofun, fun _ _ => table, fun _ _ _ => .inl marred⟩

theorem step_outturn {step : DayStep} (run : Runs (step.work settings day) events outcome)
    (agrees : (Books.opened t).Agrees events) : Outturn day step t events outcome := by
  cases step with
  | read | report =>
    obtain ⟨came, answer, rfl⟩ := read_outturn run
    rcases came with rfl | ⟨cause, rfl, marred⟩
    · exact ⟨fun _ => ⟨rfl, nofun⟩, nofun, nofun⟩
    · exact ⟨nofun, fun _ _ => rfl, fun _ _ _ => .inl marred⟩
  | gate =>
    obtain ⟨came, answer, rfl⟩ := gate_outturn run
    rcases came with rfl | ⟨cause, rfl, marred | short⟩
    · exact ⟨fun _ => ⟨rfl, nofun⟩, nofun, nofun⟩
    · exact ⟨nofun, fun _ _ => rfl, fun _ _ _ => .inl marred⟩
    · exact ⟨nofun, fun _ _ => rfl, fun _ _ _ => .inr (.inr short)⟩
  | stage category => exact Stage.outturn settings run agrees
  | finish => exact closeDay_outturn run agrees

end Steps
end ValidatorDays
