import ValidatorDays.Proofs.Stage.Conduct
import ValidatorDays.Proofs.Stage.Steps
import ValidatorDays.Proofs.Status.Books
/-! What an export may say of its day, and on what grounds. A mark rests on requirements that were
seen to be met, a finished day on all categories seen to be exported, and both rest on what cannot
be taken back. So a table stays sound, whoever else works on it between two statements. -/
namespace ValidatorDays

open Program

/-- The export has a reason for every change it asks for. -/
def Justified (day : Day) (seen : List Event) (r : Request) : Prop := ∀ w ∈ r.writes, match w with
  | .markExported d c => d = day ∧ r = Stage.mark d c ∧ openAfter seen = none ∧ Stage.Met d c seen
  | .setFinished d => d = day ∧ ∀ c, Shown seen (d, c)
  | .cumulativeTotals d _ => d = day ∧ Stage.Met d .totalPerformance seen ∧
      Denied seen (d, .totalPerformance)
  | _ => True

theorem justified_silent {day : Day} {seen : List Event} {r : Request} (silent : r.writes = []) :
    Justified day seen r := by simp [Justified, silent]

def Opened (day : Day) (status : DayStatus) (seen : List Event) : Prop :=
  WentWell seen ∧ ∃ row : Option DayStatus, ⟨.query (.status day), .ok row⟩ ∈ seen ∧
    status = row.getD .blank

theorem Opened.denied {day : Day} {status : DayStatus} {seen : List Event}
    (opened : Opened day status seen) {category : Category}
    (lacks : status.exported category = false) : Denied seen (day, category) := by
  obtain ⟨-, row, read, rfl⟩ := opened
  exact ⟨row, read, lacks⟩

theorem Opened.append {day : Day} {status : DayStatus} {seen more : List Event}
    (opened : Opened day status seen) (well : WentWell more) : Opened day status (seen ++ more) :=
  ⟨opened.1.append well, opened.2.imp fun _ h => ⟨List.mem_append_left more h.1, h.2⟩⟩

namespace Stage

theorem Allows.justified {day : Day} {category : Category} {before own : List Event} {r : Request}
    (allowed : Allows day category own r) (well : WentWell before)
    (denied : Denied before (day, category)) : Justified day (before ++ own) r := by
  rcases allowed with ⟨-, rfl⟩ | ⟨-, -, ⟨within, met⟩ | ⟨rfl, ownWell, met⟩⟩
  · exact justified_silent rfl
  · intro w member
    have owns := within w member
    cases w with
    | markExported | setFinished => exact owns.elim
    | cumulativeTotals d range =>
      obtain ⟨rfl, rfl⟩ := owns
      exact ⟨rfl, (met (List.ne_nil_of_mem member)).behind before, denied.append own⟩
    | _ => trivial
  · intro w member
    cases List.mem_singleton.mp member
    exact ⟨rfl, rfl, (well.append ownWell).closed, met.behind before⟩

theorem exportCategory_justified (settings : Settings) {day : Day} {status : DayStatus}
    {before : List Event} (opened : Opened day status before) {category : Category}
    (lacks : status.exported category = false) :
    (exportCategory settings day category).Keeps (Justified day)
      (fun seen _ => Opened day status seen) (fun _ _ => True) before := by
  refine ((exportCategory_gated settings day category).later before).mono ?_ ?_ ?_
  · rintro _ r ⟨own, rfl, allowed⟩
    exact allowed.justified opened.1 (opened.denied lacks)
  · rintro _ _ ⟨_, rfl, inner, rfl, well, -⟩
    exact opened.append (well.append (.write _))
  · exact fun _ _ _ => trivial

end Stage

def Finishes (day : Day) (seen : List Event) (r : Request) : Prop :=
  r.writes = [] ∨ (r = .write (.setFinished day) ∧ ∀ c, Shown seen (day, c))

theorem closeDay_keeps (day : Day) :
    (closeDay day).Keeps (Finishes day) (fun seen _ => WentWell seen) (fun _ _ => True) [] := by
  have commits (complete : Bool) {seen : List Event} (inside : InTransaction seen) :
      (Program.commit.bind fun _ => Program.done complete).Keeps (Finishes day)
        (fun seen _ => WentWell seen) (fun _ _ => True) seen := by
    refine ⟨.inl rfl, fun answer => ?_⟩
    cases answer with
    | error e => trivial
    | ok _ => exact inside.commit
  have finishes : (finishDay day).Keeps (Finishes day) (fun seen _ => WentWell seen)
      (fun _ _ => True) [] := by
    refine ⟨.inl rfl, fun answer => ?_⟩
    cases answer with
    | error e => trivial
    | ok _ =>
      refine ⟨.inl rfl, fun answer => ?_⟩
      have inside (row) : InTransaction
          [⟨.begin, .ok ()⟩, ⟨.query (.statusForUpdate day), .ok row⟩] :=
        ⟨by simp [Event.succeeded], .refl _, .refl _, rfl⟩
      obtain e | _ | status := answer
      · trivial
      · exact commits false (inside none)
      · cases all : status.allExported with
        | false =>
          simp only [ofDatabase, Program.bind, all]
          exact commits false (inside _)
        | true =>
          cases finished : status.finished with
          | true =>
            simp only [ofDatabase, Program.bind, all, finished]
            exact commits true (inside _)
          | false =>
            simp only [ofDatabase, Program.bind, all, finished]
            refine ⟨.inr ⟨rfl, fun c => ?_⟩, fun answer => ?_⟩
            · exact ⟨⟨.query (.statusForUpdate day), .ok (some status)⟩, by simp, rfl,
                status.exported_of_all all c⟩
            · cases answer with
              | error e => trivial
              | ok _ => exact commits true ((inside _).write _)
  refine finishes.bind fun seen finished well => ?_
  cases finished with
  | true => exact well
  | false =>
    refine ⟨.inl rfl, fun answer => ?_⟩
    cases answer <;> trivial

theorem Finishes.justified {day : Day} {before own : List Event} {r : Request}
    (finishes : Finishes day own r) : Justified day (before ++ own) r := by
  rcases finishes with silent | ⟨rfl, shown⟩
  · exact justified_silent silent
  · intro w member
    cases List.mem_singleton.mp member
    exact ⟨rfl, fun c => (shown c).behind before⟩

theorem ensureDayFinalized_keeps {day : Day} {status : DayStatus} {before : List Event}
    (opened : Opened day status before) : (ensureDayFinalized day).Keeps (Justified day)
      (fun seen _ => Opened day status seen) (fun _ _ => True) before := by
  refine ⟨justified_silent rfl, fun answer => ?_⟩
  cases answer with
  | error e => trivial
  | ok n =>
    change (ofOutcome (.ofStage (checkFinalized day n))).Keeps _ _ _ _
    rw [keeps_ofOutcome, checkFinalized]
    split
    · trivial
    · exact opened.append (.query (.finalizedEpochs day.epochs) n)

theorem step_keeps (settings : Settings) {day : Day} {status : DayStatus} {step : DayStep}
    (planned : step ∈ status.remaining) {before : List Event} (opened : Opened day status before) :
    (step.work settings day).Keeps (Justified day) (fun seen _ => Opened day status seen)
      (fun _ _ => True) before := by
  rcases List.mem_cons.mp planned with rfl | planned
  · exact (keeps_mapFailure _ _ _).mpr (ensureDayFinalized_keeps opened)
  rcases List.mem_append.mp planned with planned | planned
  · obtain ⟨category, missing, rfl⟩ := List.mem_map.mp planned
    have lacks : status.exported category = false := by
      simpa using (List.mem_filter.mp missing).2
    exact (keeps_mapFailure _ _ _).mpr (Stage.exportCategory_justified settings opened lacks)
  · cases List.mem_singleton.mp planned
    refine (keeps_mapFailure _ _ _).mpr (((closeDay_keeps day).later before).mono ?_ ?_ ?_)
    · rintro _ r ⟨own, rfl, finishes⟩
      exact finishes.justified
    · rintro _ _ ⟨own, rfl, well⟩
      exact opened.append well
    · exact fun _ _ _ => trivial

theorem exportDay_keeps (settings : Settings) (day : Day) :
    (exportDay settings day).Keeps (Justified day) (fun _ _ => True) (fun _ _ => True) [] := by
  have reads (seen : List Event) : (readStatus day).Keeps (Justified day) (fun _ _ => True)
      (fun _ _ => True) seen := by
    refine ⟨justified_silent rfl, fun answer => ?_⟩
    cases answer <;> trivial
  have opens : (readStatus day).Keeps (Justified day) (fun seen status => Opened day status seen)
      (fun _ _ => True) [] := by
    refine ⟨justified_silent rfl, fun answer => ?_⟩
    cases answer with
    | error e => trivial
    | ok row => exact ⟨.query (.status day) row, row, List.mem_singleton_self _, rfl⟩
  rw [exportDay_eq]
  refine opens.bind fun before status opened => ?_
  split
  · trivial
  · refine (Keeps.inTurn ?_ opened).bind fun seen _ _ => reads seen
    exact fun step planned seen still => step_keeps settings planned still

end ValidatorDays
