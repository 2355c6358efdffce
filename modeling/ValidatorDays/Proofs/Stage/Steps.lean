import ValidatorDays.Proofs.Work.Turns
import ValidatorDays.Stage.Day

namespace ValidatorDays

open Program

inductive DayStep where
  | read
  | gate
  | stage (category : Category)
  | finish
  | report

def readStatus (day : Day) : Program DayStatus := (statusOf day).mapFailure .asStage

def closeDay (day : Day) : Program Unit := (finishDay day).bind fun finished =>
  if finished then .done ()
  else (statusOf day).bind fun status =>
    .fail (.stage (.missingExports day (status.missing.map Category.column)))

def DayStep.work (settings : Settings) (day : Day) : DayStep → Program Unit
  | .read | .report => (readStatus day).bind fun _ => .done ()
  | .gate => (ensureDayFinalized day).mapFailure .asStage
  | .stage category => (exportCategory settings day category).mapFailure .asStage
  | .finish => (closeDay day).mapFailure .asStage

def DayStatus.remaining (status : DayStatus) : List DayStep :=
  .gate :: (status.missing.map .stage ++ [.finish])

def DayStatus.plan (status : DayStatus) : List DayStep :=
  .read :: if status.isComplete then [] else status.remaining ++ [.report]

theorem DayStatus.exported_of_all {status : DayStatus} (all : status.allExported = true)
    (category : Category) : status.exported category = true :=
  List.all_eq_true.mp all category category.mem_all

theorem exportMissing_eq (settings : Settings) (day : Day) (status : DayStatus)
    (categories : List Category) : exportMissing settings day status categories =
      inTurn (exportCategory settings day) (categories.filter fun c => !status.exported c) := by
  induction categories with
  | nil => rfl
  | cons category others ih =>
    cases lacks : status.exported category with
    | true =>
      simp only [exportMissing, lacks, ih, List.filter_cons]
      rfl
    | false =>
      simp only [exportMissing, lacks, ih, List.filter_cons]
      rfl

theorem closing_eq (day : Day) : ((finishDay day).bind fun finished =>
    if finished then statusOf day
    else (statusOf day).bind fun status =>
      .fail (.stage (.missingExports day (status.missing.map Category.column)))) =
    (closeDay day).bind fun _ => statusOf day := by
  rw [closeDay, bind_assoc]
  congr 1
  funext finished
  cases finished with
  | true => rfl
  | false =>
    change (statusOf day).bind _ = ((statusOf day).bind _).bind _
    rw [bind_assoc]
    rfl

theorem remaining_eq (settings : Settings) (day : Day) (status : DayStatus) :
    inTurn (DayStep.work settings day) status.remaining =
      ((ensureDayFinalized day).bind fun _ =>
        (exportMissing settings day status Category.all).bind fun _ => closeDay day).mapFailure
          .asStage := by
  simp only [DayStatus.remaining, inTurn, inTurn_append, inTurn_map, DayStep.work, exportMissing_eq,
    mapFailure_bind, mapFailure_inTurn]
  congr 1
  funext _
  congr 1
  funext _
  exact bind_done _

theorem exportDay_eq (settings : Settings) (day : Day) : exportDay settings day =
    (readStatus day).bind fun status => if status.isComplete then .done status
      else (inTurn (DayStep.work settings day) status.remaining).bind fun _ => readStatus day := by
  refine (mapFailure_bind _ _ _).trans (congrArg _ (funext fun status => ?_))
  by_cases complete : status.isComplete = true
  · rw [if_pos complete, if_pos complete]
    rfl
  · rw [if_neg complete, if_neg complete, remaining_eq, readStatus, ← mapFailure_bind]
    congr 1
    simp only [bind_assoc, ← closing_eq]
    rfl

theorem runs_readStatus {day : Day} {trace : List Event} {result : Outcome DayStatus}
    (run : Runs (readStatus day) trace result) :
    (∃ row : Option DayStatus, trace = [⟨.query (.status day), .ok row⟩] ∧
      result = .ok (row.getD .blank)) ∨
    ∃ e, trace = [⟨.query (.status day), .error e⟩] ∧
      result = .error (.stage (.notPersisted e)) := by
  cases run with
  | ask answer rest =>
    cases answer with
    | ok row =>
      cases rest
      exact .inl ⟨row, rfl, rfl⟩
    | error e =>
      cases rest
      exact .inr ⟨e, rfl, rfl⟩

/-- A run of an export keeps a journal of the steps planned for the status it reads first. What it
comes to, if all goes well, is the status it reads last. -/
theorem runs_exportDay {settings : Settings} {day : Day} {trace : List Event}
    {result : Outcome DayStatus} (run : Runs (exportDay settings day) trace result)
    {status : DayStatus} (found : ∀ row rest, trace = ⟨.query (.status day), .ok row⟩ :: rest →
      row.getD .blank = status) :
    (∃ journal, Taken (DayStep.work settings day) status.plan journal (result.map fun _ => ()) ∧
      trace = journal.flatMap Entry.events) ∧
    ∀ final, result = .ok final → ∃ before row,
      trace = before ++ [⟨.query (.status day), .ok row⟩] ∧ final = row.getD .blank := by
  rw [exportDay_eq] at run
  have turns : inTurn (DayStep.work settings day) status.plan =
      (readStatus day).bind fun _ => inTurn (DayStep.work settings day)
        (if status.isComplete then [] else status.remaining ++ [.report]) := bind_assoc _ _ _
  rw [← runs_inTurn, turns, runs_bind]
  rcases runs_bind.mp run with ⟨first, read, rest, rfl, reads, others⟩ | ⟨cause, fails, rfl⟩
  · rcases runs_readStatus reads with ⟨row, rfl, same⟩ | ⟨e, -, failed⟩
    · cases same
      cases found row rest rfl
      by_cases complete : (row.getD .blank).isComplete = true
      · rw [if_pos complete] at others ⊢
        cases others
        refine ⟨.inl ⟨_, _, [], rfl, reads, .done ()⟩, fun final same => ?_⟩
        cases same
        exact ⟨[], row, rfl, rfl⟩
      · rw [if_neg complete] at others ⊢
        refine ⟨.inl ⟨_, _, rest, rfl, reads, ?_⟩, fun final same => ?_⟩
        · have last : inTurn (DayStep.work settings day) [.report] =
              (readStatus day).bind fun _ => .done () := bind_done _
          rw [inTurn_append, last, ← bind_assoc]
          exact others.discard ()
        · subst same
          rcases runs_bind.mp others with ⟨taken, _, last, rfl, -, reports⟩ | ⟨cause, -, failed⟩
          · rcases runs_readStatus reports with ⟨row', rfl, same⟩ | ⟨e, -, failed⟩
            · cases same
              exact ⟨_, row', by rw [← List.append_assoc], rfl⟩
            · cases failed
          · cases failed
    · cases failed
  · exact ⟨.inr ⟨cause, fails, rfl⟩, nofun⟩

end ValidatorDays
