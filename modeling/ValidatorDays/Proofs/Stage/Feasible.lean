import ValidatorDays.Proofs.Chain.Days
import ValidatorDays.Proofs.Stage.Resumption
import ValidatorDays.Proofs.Status.Ways

namespace ValidatorDays

open Program

theorem requirements_found {day : Day} (valid : day.number ∈ Bounds.int32)
    (notBefore : Day.genesis ≤ day) (c : Category) : ∃ rs, requirementsOf day c = .ok rs := by
  have previous := Day.previous_found valid notBefore
  cases c with
  | consensusRewards =>
    simp only [requirementsOf, ConsensusRewards.requirements, previous]
    split <;> exact ⟨_, rfl⟩
  | totalPerformance =>
    simp only [requirementsOf, TotalPerformance.requirements, previous]
    exact ⟨_, rfl⟩
  | _ => exact ⟨[], rfl⟩

theorem ReadyAll.takes {day : Day} {t : StatusTable} {steps more : List DayStep}
    (ready : ReadyAll day t (steps ++ more)) : ReadyAll day t steps := by
  induction steps generalizing t with
  | nil => trivial
  | cons step rest ih => exact ⟨ready.1, ih ready.2⟩

namespace Stage

variable {t : StatusTable} {day : Day}

theorem mark_may_succeed (t : StatusTable) (day : Day) (c : Category) :
    (markExported day c).MaySucceed t :=
  ⟨[⟨mark day c, .ok ()⟩], .ok (), .ask (r := mark day c) (.ok ()) (.done ()), ⟨trivial, trivial⟩,
    rfl⟩

theorem may_succeed (valid : day.number ∈ Bounds.int32) (notBefore : Day.genesis ≤ day)
    {c : Category} (other : c ≠ .totalPerformance) (ready : (DayStep.stage c).Ready day t) :
    (exportCategory .oneWindow day c).MaySucceed t := by
  have last := mark_may_succeed t day c
  cases c with
  | failedAttestations =>
    refine (Passes.gate day).before ?_
    refine (Passes.outcome (congrArg Outcome.ofChecked (Day.epochs_split valid))).before ?_
    refine (Passes.fetches _ _).before ?_
    refine (Passes.outcome (a := []) rfl).before ?_
    exact (Passes.mergeRows ..).before last
  | syncDuties =>
    refine (Passes.gate day).before ?_
    refine (Passes.ask (.syncDuties day.epochs) []).before ?_
    exact (Passes.mergeRowsTogether ..).before last
  | withdrawalsDeposits =>
    obtain ⟨range, ⟨first, stop⟩, shifted, slots⟩ := Day.shifted_slots valid
    refine (Passes.gate day).before ?_
    refine (Passes.outcome (congrArg Outcome.ofChecked shifted)).before ?_
    refine (Passes.outcome (congrArg Outcome.ofChecked slots)).before ?_
    refine (Passes.both (.read (.deposits range day) [] trivial)
      (.read (.withdrawals first stop) [] trivial)).before ?_
    refine (Passes.outcome (congrArg Outcome.ofStage (Batch.plan_nil ..))).before ?_
    exact (Passes.outcome (congrArg Outcome.ofStage (Batch.plan_nil ..))).before last
  | blockStats =>
    refine (Passes.gate day).before ?_
    refine (Passes.both (.read (.blockCounts day.epochs) [] trivial)
      (.read (.slashings day.epochs) [] trivial)).before ?_
    refine (Passes.mergeRows ..).before ?_
    exact (Passes.mergeRows ..).before last
  | balance =>
    refine (Passes.gate day).before ?_
    refine (Passes.ask (.balances day.epochs) []).before ?_
    exact (Passes.mergeRows ..).before last
  | consensusRewards =>
    obtain ⟨rs, required⟩ := requirements_found valid notBefore .consensusRewards
    refine (Passes.gate day).before ?_
    refine (Passes.outcome (congrArg Outcome.ofChecked required)).before ?_
    refine (Passes.exported day (ready rs required)).before ?_
    refine (Passes.ask (.proposerIncome day.epochs) []).before ?_
    refine (Passes.outcome (a := []) rfl).before ?_
    refine (Passes.outcome (a := 0) rfl).before ?_
    refine (Passes.read .validatorCount 0 trivial).before ?_
    refine (Passes.outcome (a := []) rfl).before ?_
    refine Passes.before (a := []) ?_ last
    rw [Group.run_nothing]
    exact Passes.done []
  | executionRewards =>
    refine (Passes.gate day).before ?_
    refine (Passes.read (.canonicalBlocks day.epochs) [] trivial).before ?_
    refine (Passes.ask (.blockRewards []) []).before ?_
    refine (Passes.askRelays []).before ?_
    refine (Passes.outcome (a := []) rfl).before ?_
    exact (Passes.mergeRowsTogether ..).before last
  | totalPerformance => exact absurd rfl other

def IssuesTotals (day : Day) (events : List Event) : Prop :=
  ∃ range, ⟨.startWrite (.cumulativeTotals day range), ()⟩ ∈ events

theorem IssuesTotals.behind {events : List Event} (issues : IssuesTotals day events)
    (before : List Event) : IssuesTotals day (before ++ events) :=
  issues.imp fun _ member => List.mem_append_right before member

theorem IssuesTotals.append {events : List Event} (issues : IssuesTotals day events)
    (more : List Event) : IssuesTotals day (events ++ more) :=
  issues.imp fun _ member => List.mem_append_left more member

theorem totals_may_be_issued (valid : day.number ∈ Bounds.int32) (notBefore : Day.genesis ≤ day)
    (ready : (DayStep.stage .totalPerformance).Ready day t) :
    (exportCategory .oneWindow day .totalPerformance).May t fun events _ =>
      IssuesTotals day events := by
  obtain ⟨rs, required⟩ := requirements_found valid notBefore .totalPerformance
  have behind (before events : List Event) (_ : Outcome Unit) (issues : IssuesTotals day events) :=
    issues.behind before
  refine (Passes.gate day).may ?_ behind
  refine (Passes.outcome (congrArg Outcome.ofChecked required)).may ?_ behind
  refine (Passes.exported day (ready rs required)).may ?_ behind
  refine (Passes.read .validatorCount 1 trivial).may ?_ behind
  change Program.May t (Program.bind (Group.run _ _ [TotalPerformance.job day ⟨0, 1⟩]) _) _
  rw [Group.run_first]
  exact (Program.may_start _ _).imp fun events h => h.imp fun _ h => ⟨h.1, h.2.1, ⟨0, 1⟩, h.2.2⟩

theorem turns_may_issue (valid : day.number ∈ Bounds.int32) (notBefore : Day.genesis ≤ day)
    (more : List DayStep) {cs : List Category} (others : ∀ c ∈ cs, c ≠ .totalPerformance)
    (ready : ReadyAll day t (cs.map .stage ++ [.stage .totalPerformance])) :
    (inTurn (DayStep.work .oneWindow day)
      (cs.map .stage ++ .stage .totalPerformance :: more)).May t fun events _ =>
        IssuesTotals day events := by
  induction cs generalizing t with
  | nil =>
    have issued := (totals_may_be_issued valid notBefore ready.1).mapFailure .asStage
    exact issued.onward fun events issues => issues.append
  | cons c cs ih =>
    obtain ⟨first, rest⟩ := List.forall_mem_cons.mp others
    have goesWell := (may_succeed valid notBefore first ready.1).mapFailure .asStage
    obtain ⟨before, _, run, agrees, rfl⟩ := goesWell
    have outturn : Outturn day (.stage c) t before (.ok ()) := step_outturn run agrees
    have same := (outturn.well rfl).1
    obtain ⟨events, result, later, agreesToo, issues⟩ := ih rest ready.2
    refine ⟨before ++ events, result, runs_bind.mpr (.inl ⟨before, (), events, rfl, run, later⟩),
      (Books.agrees_append ..).mpr ⟨agrees, ?_⟩, issues.behind before⟩
    rw [same]
    exact agreesToo

end Stage

/-- Where a day has what it requires and lacks its totals, an export can come to issue some. -/
theorem attempt_may_issue {t : StatusTable} {day : Day} (valid : day.number ∈ Bounds.int32)
    (notBefore : Day.genesis ≤ day) (supports : t.Supports day)
    (lacks : ¬ t.Exported day .totalPerformance) : ∃ trace result u,
      Attempt .oneWindow day t trace result u ∧ Stage.IssuesTotals day trace := by
  have missing : (t.status day).exported .totalPerformance = false := by
    simpa [StatusTable.Exported] using lacks
  have incomplete : ¬ (t.status day).isComplete = true := by
    intro complete
    exact lacks ((t.status day).exported_of_all (Bool.and_eq_true_iff.mp complete).2 _)
  let others := Category.all.dropLast.filter fun c => !(t.status day).exported c
  have early : ∀ c ∈ Category.all.dropLast, c ≠ .totalPerformance := by decide
  have last : Category.all.filter (fun c => !(t.status day).exported c) =
      others ++ [.totalPerformance] := by
    change (Category.all.dropLast ++ [Category.totalPerformance]).filter _ = _
    rw [List.filter_append]
    simp [others, missing]
  have planned : (t.status day).remaining =
      .gate :: (others.map .stage ++ .stage .totalPerformance :: [.finish]) := by
    rw [DayStatus.remaining, DayStatus.missing, last]
    simp
  have ready := stages_ready Category.all (List.nil_append _).symm (by simp) (fun _ => id) supports
  rw [last, List.map_append] at ready
  have turns := Stage.turns_may_issue valid notBefore [.finish]
    (fun c member => early c (List.mem_filter.mp member).1) ready.takes
  have exports : (exportDay .oneWindow day).May t fun events _ =>
      Stage.IssuesTotals day events := by
    rw [exportDay_eq]
    refine ((Passes.status day).mapFailure .asStage).may ?_ fun before _ _ => (·.behind before)
    rw [if_neg incomplete, planned]
    refine May.onward ?_ fun _ issues => issues.append
    exact ((Passes.gate day).mapFailure .asStage).may turns fun before _ _ => (·.behind before)
  obtain ⟨trace, result, run, agrees, issues⟩ := exports
  exact ⟨trace, result, _, ⟨run, agrees, rfl⟩, issues⟩

end ValidatorDays
