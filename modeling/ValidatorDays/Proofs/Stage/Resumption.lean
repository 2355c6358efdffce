import Mathlib
import ValidatorDays.Proofs.Stage.Attempts
/-! Exports of one day, one after the other, each of which may stop anywhere. A run goes on where
the table says the last one stopped, fails by its first step that fails, and once nothing fails
there is nothing left to do for any run after it. -/
namespace ValidatorDays

open Program Relation

theorem DayStep.exported_effect (step : DayStep) (day : Day) (t : StatusTable) (d : Day)
    (c : Category) : (step.effect day t).Exported d c ↔
      t.Exported d c ∨ (d = day ∧ step = .stage c) := by
  cases step with
  | stage category =>
    simp only [effect, t.exported_mark, DayStep.stage.injEq]
    exact or_congr Iff.rfl (and_congr Iff.rfl eq_comm)
  | finish => simp [effect, t.exported_finish]
  | read | gate | report => simp [effect]

theorem DayStep.finished_effect (step : DayStep) {day : Day} {t : StatusTable}
    (ready : step = .finish → (t.status day).allExported = true) (d : Day) :
    (step.effect day t).Finished d ↔ t.Finished d ∨ (d = day ∧ step = .finish) := by
  cases step with
  | stage category => simp [effect, t.finished_mark]
  | finish =>
    have stored : (t day).isSome := by
      cases row : t day with
      | some status => rfl
      | none =>
        have all := ready rfl
        rw [StatusTable.status, row] at all
        cases all
    simp [effect, t.finished_finish, stored]
  | read | gate | report => simp [effect]

section Journal

variable {settings : Settings} {day : Day} {steps : List DayStep} {journal : List (Entry DayStep)}
  {result : Outcome Unit}

theorem taken_leaves (taken : Taken (DayStep.work settings day) steps journal result)
    {t : StatusTable} (agrees : (Books.opened t).Agrees (journal.flatMap Entry.events)) :
    let u := ((Books.opened t).afterAll (journal.flatMap Entry.events)).table
    (∀ d c, u.Exported d c ↔ t.Exported d c ∨
      (d = day ∧ ∃ e ∈ journal, e.step = .stage c ∧ e.outcome = .ok ())) ∧
    (∀ d, u.Finished d ↔ t.Finished d ∨
      (d = day ∧ ∃ e ∈ journal, e.step = .finish ∧ e.outcome = .ok ())) ∧
    (result = .ok () → (Books.opened t).afterAll (journal.flatMap Entry.events) = .opened u) := by
  induction taken generalizing t with
  | nothing => simp [Books.afterAll, Books.opened]
  | fails run =>
    simp only [List.flatMap_cons, List.flatMap_nil, List.append_nil] at agrees ⊢
    rw [(step_outturn run agrees).failed _ rfl]
    simp
  | @goes step rest events journal result run others ih =>
    rw [List.flatMap_cons, Books.agrees_append] at agrees
    obtain ⟨same, ready⟩ := (step_outturn run agrees.1).well rfl
    rw [same] at agrees
    obtain ⟨exported, finished, ends⟩ := ih agrees.2
    simp only [List.flatMap_cons, Books.afterAll_append, same]
    refine ⟨fun d c => ?_, fun d => ?_, ends⟩
    · rw [exported, step.exported_effect]
      simp only [List.mem_cons, exists_eq_or_imp, and_true, and_or_left, or_assoc]
    · rw [finished, step.finished_effect ready]
      simp only [List.mem_cons, exists_eq_or_imp, and_true, and_or_left, or_assoc]

def ReadyAll (day : Day) : StatusTable → List DayStep → Prop
  | _, [] => True
  | t, step :: rest => step.Ready day t ∧ ReadyAll day (step.effect day t) rest

theorem taken_goes_well (taken : Taken (DayStep.work settings day) steps journal result)
    {t : StatusTable} (agrees : (Books.opened t).Agrees (journal.flatMap Entry.events))
    (ready : ReadyAll day t steps) (succeeded : ¬ Marred (journal.flatMap Entry.events))
    (finalized : ¬ Stage.TooFewFinal day (journal.flatMap Entry.events)) :
    result = .ok () ∨ ∃ cause, result = .error cause ∧ cause.IsOwn := by
  induction taken generalizing t with
  | nothing => exact .inl rfl
  | @fails step rest events cause run =>
    simp only [List.flatMap_cons, List.flatMap_nil, List.append_nil] at agrees succeeded finalized
    rcases (step_outturn run agrees).reason cause rfl ready.1 with marred | isOwn | short
    · exact absurd marred succeeded
    · exact .inr ⟨cause, rfl, isOwn⟩
    · exact absurd short finalized
  | @goes step rest events journal result run others ih =>
    rw [List.flatMap_cons] at succeeded finalized
    rw [List.flatMap_cons, Books.agrees_append] at agrees
    rw [((step_outturn run agrees.1).well rfl).1] at agrees
    refine ih agrees.2 ready.2 (fun marred => succeeded (marred.behind _)) fun short => finalized ?_
    exact short.imp fun n h => ⟨List.mem_append_right _ h.1, h.2⟩

end Journal

/-- What the categories of the day require of other days is exported. -/
def StatusTable.Supports (t : StatusTable) (day : Day) : Prop :=
  ∀ category rs, requirementsOf day category = .ok rs →
    ∀ r ∈ rs, r.1 ≠ day → t.Exported r.1 r.2

theorem StatusTable.supports_of_previous {t : StatusTable} {day : Day} (valid : Day.genesis ≤ day)
    (previous : Day.genesis < day → ∀ c ∈ [Category.balance, .withdrawalsDeposits,
      .consensusRewards, .executionRewards], t.Exported ⟨day.number - 1⟩ c) : t.Supports day := by
  have notBefore : 0 ≤ day.number := valid
  intro category rs required r member other
  cases category with
  | consensusRewards =>
    cases consensusRewards_required required
    by_cases later : Day.genesis < day
    · rw [if_pos later] at member
      simp only [List.cons_append, List.nil_append, List.mem_cons, List.not_mem_nil, or_false]
        at member
      rcases member with rfl | rfl | rfl | rfl
      · exact absurd rfl other
      · exact absurd rfl other
      · exact previous later _ (by simp)
      · exact previous later _ (by simp)
    · rw [if_neg later] at member
      simp only [List.append_nil, List.mem_cons, List.not_mem_nil, or_false] at member
      rcases member with rfl | rfl <;> exact absurd rfl other
  | totalPerformance =>
    cases totalPerformance_required required
    have dayBefore : ∀ c ∈ [Category.balance, .withdrawalsDeposits, .consensusRewards,
        .executionRewards], (⟨max (day.number - 1) 0⟩ : Day) ≠ day →
        t.Exported ⟨max (day.number - 1) 0⟩ c := by
      intro c among different
      by_cases later : 0 < day.number
      · rw [Int.max_eq_left (by omega)]
        exact previous later c among
      · have first : max (day.number - 1) 0 = day.number := by omega
        exact absurd (by rw [first]) different
    simp only [List.mem_cons, List.not_mem_nil, or_false] at member
    rcases member with rfl | rfl | rfl | rfl
    · exact absurd rfl other
    · exact absurd rfl other
    · exact dayBefore _ (by simp) other
    · exact dayBefore _ (by simp) other
  | _ =>
    cases required
    cases member

theorem required_before {day : Day} {category : Category} {rs : Requirements}
    (required : requirementsOf day category = .ok rs) :
    ∀ r ∈ rs, Category.all.idxOf r.2 < Category.all.idxOf category := by
  cases category with
  | consensusRewards =>
    cases consensusRewards_required required
    split <;> simp only [List.cons_append, List.nil_append, List.forall_mem_cons] <;> decide
  | totalPerformance =>
    cases totalPerformance_required required
    simp only [List.forall_mem_cons]
    decide
  | _ =>
    cases required
    simp

theorem mem_of_idxOf_lt {pre post : List Category} {c category : Category}
    (earlier : (pre ++ category :: post).idxOf c < (pre ++ category :: post).idxOf category) :
    c ∈ pre := by
  by_contra absent
  rw [List.idxOf_append_of_notMem absent] at earlier
  by_cases inside : category ∈ pre
  · rw [List.idxOf_append_of_mem inside] at earlier
    have := List.idxOf_lt_length_iff.mpr inside
    omega
  · rw [List.idxOf_append_of_notMem inside, List.idxOf_cons_self] at earlier
    omega

/-- The stages that are left are ready one after the other: what a category requires of its own day
was exported before, or is on its way ahead of it. -/
theorem stages_ready {day : Day} {status : DayStatus} (post : List Category)
    {pre : List Category} (order : Category.all = pre ++ post) {t : StatusTable}
    (done : ∀ c ∈ pre, t.Exported day c)
    (known : ∀ c, status.exported c = true → t.Exported day c) (supports : t.Supports day) :
    ReadyAll day t ((post.filter fun c => !status.exported c).map .stage ++
      [.finish, .report]) := by
  induction post generalizing pre t with
  | nil =>
    rw [List.append_nil] at order
    refine ⟨List.all_eq_true.mpr fun c _ => ?_, trivial, trivial⟩
    exact done c (order ▸ c.mem_all)
  | cons category others ih =>
    have order' : Category.all = (pre ++ [category]) ++ others := by simp [order]
    cases missing : status.exported category with
    | true =>
      rw [List.filter_cons, if_neg (by simp [missing])]
      refine ih order' (fun c member => ?_) known supports
      rcases List.mem_append.mp member with before | now
      · exact done c before
      · cases List.mem_singleton.mp now
        exact known category missing
    | false =>
      rw [List.filter_cons, if_pos (by simp [missing]), List.map_cons, List.cons_append]
      have grows := t.write_grows (.markExported day category)
      constructor
      · intro rs required r member
        by_cases own : r.1 = day
        · have earlier := required_before required r member
          rw [order] at earlier
          exact own ▸ done r.2 (mem_of_idxOf_lt earlier)
        · exact supports category rs required r member own
      · refine ih order' (fun c member => ?_) (fun c here => grows.1 _ _ (known c here))
          fun c rs required r member other => grows.1 _ _ (supports c rs required r member other)
        rcases List.mem_append.mp member with before | now
        · exact grows.1 _ _ (done c before)
        · cases List.mem_singleton.mp now
          exact (t.exported_mark ..).mpr (.inr ⟨rfl, rfl⟩)

theorem plan_ready {day : Day} {t : StatusTable} (supports : t.Supports day) :
    ReadyAll day t (t.status day).plan := by
  refine ⟨trivial, ?_⟩
  split
  · trivial
  · refine ⟨trivial, ?_⟩
    change ReadyAll day t ((_ ++ _) ++ _)
    rw [List.append_assoc]
    exact stages_ready Category.all (List.nil_append _).symm (by simp) (fun _ => id) supports

theorem plan_finishes_last (status : DayStatus) :
    status.plan.Pairwise fun before after => before = .finish → after = .report := by
  have stages : (status.missing.map DayStep.stage).Pairwise
      fun before after => before = .finish → after = .report := by
    refine List.pairwise_map.mpr (List.pairwise_of_forall fun a b => ?_)
    exact nofun
  unfold DayStatus.plan
  split
  · simp
  · simp only [DayStatus.remaining, List.cons_append, List.append_assoc, List.pairwise_cons,
      List.pairwise_append, stages]
    simp

theorem stage_planned {status : DayStatus} {category : Category}
    (planned : DayStep.stage category ∈ status.plan) : status.exported category = false := by
  unfold DayStatus.plan at planned
  split at planned
  · simp at planned
  · simp only [DayStatus.remaining, List.cons_append, List.mem_cons, List.mem_append, List.mem_map,
      reduceCtorEq, List.not_mem_nil, or_false, false_or] at planned
    obtain ⟨c, missing, same⟩ := planned
    cases same
    simpa using (List.mem_filter.mp missing).2

theorem reports_once_finished {settings : Settings} {day : Day} {status : DayStatus}
    {before : List (Entry DayStep)} {last closing : Entry DayStep} {result : Outcome Unit}
    (taken : Taken (DayStep.work settings day) status.plan (before ++ [last]) result)
    (earlier : closing ∈ before) (isFinish : closing.step = .finish) : last.step = .report := by
  have order := (plan_finishes_last status).sublist taken.steps_prefix.sublist
  rw [List.map_append, List.pairwise_append] at order
  exact order.2.2 _ (List.mem_map_of_mem earlier) last.step (by simp) isFinish

theorem unfinished_of_failed {settings : Settings} {day : Day} {status : DayStatus}
    {journal : List (Entry DayStep)} {result : Outcome Unit}
    (taken : Taken (DayStep.work settings day) status.plan journal result) {e : Entry DayStep}
    (member : e ∈ journal) {category : Category} (isStage : e.step = .stage category)
    (failed : e.outcome ≠ .ok ()) :
    ¬ ∃ closing ∈ journal, closing.step = .finish ∧ closing.outcome = .ok () := by
  rintro ⟨closing, found, isFinish, well⟩
  cases result with
  | ok _ => exact failed (taken.of_ok.2 e member)
  | error cause =>
    obtain ⟨before, last, rfl, -, good⟩ := taken.of_error
    have atLast : e = last := by
      rcases List.mem_append.mp member with earlier | now
      · exact absurd (good e earlier) failed
      · exact List.mem_singleton.mp now
    subst atLast
    have earlier : closing ∈ before := by
      rcases List.mem_append.mp found with earlier | now
      · exact earlier
      · cases List.mem_singleton.mp now
        exact absurd well failed
    have reports := reports_once_finished taken earlier isFinish
    rw [isStage] at reports
    cases reports

/-- Nothing went wrong: no answer was a failure, whenever epochs were counted all were final, and
the export found no fault of its own, be it a number out of range or a block that nobody knows. -/
structure Smooth (day : Day) (trace : List Event) (result : Outcome DayStatus) : Prop where
  succeeded : ∀ e ∈ trace, e.succeeded
  finalized : ∀ n, ⟨Stage.gate day, .ok n⟩ ∈ trace → epochsPerDay ≤ n
  faultless : ∀ cause, result = .error cause → ¬ cause.IsOwn

/-- From one table to another by exports of the same day, one after the other. -/
def Resumed (day : Day) : StatusTable → StatusTable → Prop := ReflTransGen fun t u =>
  ∃ settings trace result, Attempt settings day t trace result u

section Attempt

variable {settings : Settings} {day : Day} {t u : StatusTable} {trace : List Event}
  {result : Outcome DayStatus}

theorem Attempt.journal (attempt : Attempt settings day t trace result u) : ∃ journal,
    Taken (DayStep.work settings day) (t.status day).plan journal (result.map fun _ => ()) ∧
      trace = journal.flatMap Entry.events := by
  refine (runs_exportDay attempt.runs ?_).1
  rintro row rest rfl
  exact congrArg (·.getD .blank) attempt.agrees.1

theorem Attempt.rests (attempt : Attempt settings day t trace result u)
    (complete : (t.status day).isComplete = true) :
    (∃ answer, trace = [⟨.query (.status day), answer⟩]) ∧ u = t := by
  obtain ⟨journal, taken, rfl⟩ := attempt.journal
  rw [DayStatus.plan, if_pos complete] at taken
  generalize (result.map fun _ => ()) = ended at taken
  have reads : ∃ answer, journal.flatMap Entry.events = [⟨.query (.status day), answer⟩] := by
    cases taken with
    | fails run => simpa using (read_outturn run).2
    | goes run others =>
      cases others
      simpa using (read_outturn run).2
  obtain ⟨answer, same⟩ := reads
  have leaves := attempt.leaves
  rw [same] at leaves
  exact ⟨⟨answer, same⟩, leaves.symm⟩

theorem Resumed.rests {v : StatusTable} (resumed : Resumed day u v)
    (complete : (u.status day).isComplete = true) : v = u := by
  induction resumed with
  | refl => rfl
  | tail _ step ih =>
    subst ih
    obtain ⟨settings, trace, result, attempt⟩ := step
    exact (attempt.rests complete).2

theorem Attempt.closes {final : DayStatus}
    (attempt : Attempt settings day t trace (.ok final) u) :
    (Books.opened t).afterAll trace = .opened u := by
  obtain ⟨journal, taken, same⟩ := attempt.journal
  have closed := (taken_leaves taken (same ▸ attempt.agrees)).2.2 rfl
  rwa [← same, attempt.leaves] at closed

theorem Attempt.reports {final : DayStatus}
    (attempt : Attempt settings day t trace (.ok final) u) : final = u.status day := by
  have agrees := attempt.agrees
  have closed := attempt.closes
  have found : ∀ row rest, trace = ⟨.query (.status day), .ok row⟩ :: rest →
      row.getD .blank = t.status day := by
    rintro row rest rfl
    exact congrArg (·.getD .blank) agrees.1
  obtain ⟨before, row, rfl, rfl⟩ := (runs_exportDay attempt.runs found).2 final rfl
  rw [Books.afterAll_append] at closed
  have still := Books.after_reads ((Books.opened t).afterAll before)
    (e := ⟨.query (.status day), .ok row⟩) trivial
  have closed : (Books.opened t).afterAll before = .opened u := still.symm.trans closed
  have read := ((Books.agrees_append ..).mp agrees).2.1
  rw [closed] at read
  exact congrArg (·.getD .blank) read

theorem Attempt.completes {final : DayStatus}
    (attempt : Attempt settings day t trace (.ok final) u) :
    u.Finished day ∧ ∀ c, u.Exported day c := by
  obtain ⟨journal, taken, rfl⟩ := attempt.journal
  obtain ⟨all, well⟩ := taken.of_ok
  obtain ⟨exported, finished, -⟩ := taken_leaves taken attempt.agrees
  simp only [attempt.leaves] at exported finished
  have made {step : DayStep} (planned : step ∈ (t.status day).plan) :
      ∃ e ∈ journal, e.step = step ∧ e.outcome = .ok () := by
    rw [← all] at planned
    obtain ⟨e, member, same⟩ := List.mem_map.mp planned
    exact ⟨e, member, same, well e member⟩
  by_cases complete : (t.status day).isComplete = true
  · obtain ⟨done, covered⟩ := Bool.and_eq_true_iff.mp complete
    exact ⟨(finished day).mpr (.inl done), fun c =>
      (exported day c).mpr (.inl ((t.status day).exported_of_all covered c))⟩
  · have planned : (t.status day).plan = .read :: ((t.status day).remaining ++ [.report]) := by
      rw [DayStatus.plan, if_neg complete]
    constructor
    · refine (finished day).mpr (.inr ⟨rfl, made ?_⟩)
      simp [planned, DayStatus.remaining]
    · intro c
      cases missing : (t.status day).exported c with
      | true => exact (exported day c).mpr (.inl missing)
      | false =>
        refine (exported day c).mpr (.inr ⟨rfl, made ?_⟩)
        simp [planned, DayStatus.remaining, DayStatus.missing, c.mem_all, missing]

/-- However often the export of a day is broken off, the next run goes on where it was. Step by
step: it fails by the first step that fails; the table gains the categories whose stages went well
in it, and no others; the day is not finished by a run in which a stage fails; what was exported
before is not touched; where nothing goes wrong the run ends well; and once a run has ended well,
any later one reads the status and nothing else. -/
theorem attempt_resumes (attempt : Attempt settings day t trace result u) : ∃ journal,
    Taken (DayStep.work settings day) (t.status day).plan journal (result.map fun _ => ()) ∧
    trace = journal.flatMap Entry.events ∧
    (∀ cause, result = .error cause → ∃ before last, journal = before ++ [last] ∧
      last.outcome = .error cause ∧ ∀ e ∈ before, e.outcome = .ok ()) ∧
    (∀ d c, u.Exported d c ↔ t.Exported d c ∨
      (d = day ∧ ∃ e ∈ journal, e.step = .stage c ∧ e.outcome = .ok ())) ∧
    (∀ e ∈ journal, ∀ c, e.step = .stage c → e.outcome ≠ .ok () →
      ∀ d, u.Finished d ↔ t.Finished d) ∧
    (∀ e ∈ journal, ∀ c, e.step = .stage c → ¬ t.Exported day c) ∧
    (Smooth day trace result → t.Supports day → ∃ final, result = .ok final) ∧
    (∀ final, result = .ok final → (final = u.status day ∧ final.finished = true ∧
      ∀ c, final.exported c = true) ∧ ∀ v, Resumed day u v →
        ∀ settings' trace' result' w, Attempt settings' day v trace' result' w →
          ∃ answer, trace' = [⟨.query (.status day), answer⟩]) := by
  obtain ⟨journal, taken, rfl⟩ := attempt.journal
  obtain ⟨exported, finished, -⟩ := taken_leaves taken attempt.agrees
  simp only [attempt.leaves] at exported finished
  have inPlan := taken.steps_prefix
  refine ⟨journal, taken, rfl, ?_, exported, ?_, ?_, ?_, ?_⟩
  · rintro cause rfl
    exact taken.of_error
  · intro e member c isStage failed d
    rw [finished d]
    exact or_iff_left fun closed => unfinished_of_failed taken member isStage failed closed.2
  · intro e member c isStage
    have planned := inPlan.subset (List.mem_map_of_mem member)
    rw [isStage] at planned
    have missing := stage_planned planned
    exact fun present => Bool.noConfusion (missing.symm.trans present)
  · intro smooth supports
    have unmarred := not_marred.mpr smooth.succeeded
    have long : ¬ Stage.TooFewFinal day (journal.flatMap Entry.events) := by
      rintro ⟨n, counted, tooFew⟩
      exact absurd tooFew (Int.not_lt.mpr (smooth.finalized n counted))
    have goesWell := taken_goes_well taken attempt.agrees (plan_ready supports) unmarred long
    cases result with
    | ok final => exact ⟨final, rfl⟩
    | error cause =>
      rcases goesWell with well | ⟨cause', same, isOwn⟩
      · cases well
      · cases same
        exact absurd isOwn (smooth.faultless cause rfl)
  · rintro final rfl
    obtain ⟨isFinished, all⟩ := attempt.completes
    have same := attempt.reports
    refine ⟨⟨same, same ▸ isFinished, fun c => same ▸ all c⟩, ?_⟩
    intro v resumed settings' trace' result' w later
    have complete : (u.status day).isComplete = true :=
      Bool.and_eq_true_iff.mpr ⟨isFinished, List.all_eq_true.mpr fun c _ => all c⟩
    obtain rfl := resumed.rests complete
    exact (later.rests complete).1

end Attempt

/-- Not the answer that fewer epochs are finalized than a day has. -/
def Program.Event.countsWell : Event → Bool
  | ⟨.query (.finalizedEpochs _), .ok n⟩ => decide (epochsPerDay ≤ n)
  | _ => true

theorem attempt_resumes_calm : ∃ trace final u,
    Attempt .oneWindow .genesis .empty trace (.ok final) u ∧ Smooth .genesis trace (.ok final) ∧
      final.finished = true ∧ ∀ settings' trace' result' w,
        Attempt settings' .genesis u trace' result' w →
          ∃ answer, trace' = [⟨.query (.status .genesis), answer⟩] := by
  let p := exportDay .oneWindow .genesis
  have attempt : Attempt .oneWindow .genesis .empty (p.observe (Books.calm 0) (.opened .empty)).1
      (p.observe (Books.calm 0) (.opened .empty)).2 _ :=
    ⟨runs_observe .., (Books.calm_honest 0).agrees .., rfl⟩
  have succeeded : (p.observe (Books.calm 0) (.opened .empty)).1.all
      (fun e => decide e.succeeded) = true := by
    cbv
  have finalized : (p.observe (Books.calm 0) (.opened .empty)).1.all Event.countsWell = true := by
    cbv
  have well : (p.observe (Books.calm 0) (.opened .empty)).2.toBool = true := by
    cbv
  generalize p.observe (Books.calm 0) (.opened .empty) = observed
    at attempt succeeded finalized well
  obtain ⟨trace, result⟩ := observed
  have smooth : Smooth .genesis trace result := by
    refine ⟨fun e member => of_decide_eq_true (List.all_eq_true.mp succeeded e member), ?_, ?_⟩
    · exact fun n counted => of_decide_eq_true (List.all_eq_true.mp finalized _ counted)
    · rintro cause rfl
      cases well
  have supports : StatusTable.empty.Supports .genesis :=
    StatusTable.supports_of_previous (Int.le_refl 0) fun later => absurd later (by decide)
  obtain ⟨_, -, -, -, -, -, -, goesWell, ends⟩ := attempt_resumes attempt
  obtain ⟨final, rfl⟩ := goesWell smooth supports
  obtain ⟨⟨-, finished, -⟩, later⟩ := ends final rfl
  exact ⟨trace, final, _, attempt, smooth, finished, later _ .refl⟩

end ValidatorDays
