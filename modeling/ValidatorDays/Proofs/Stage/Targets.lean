import Mathlib
import ValidatorDays.Proofs.Stage.Conduct
import ValidatorDays.Proofs.Upsert.Merges

namespace ValidatorDays

open Program

def Category.targets : Category → List Target
  | .failedAttestations => [FailedAttestations.target]
  | .syncDuties => [SyncDuties.target]
  | .withdrawalsDeposits => [Deposits.target, Withdrawals.target]
  | .blockStats => [BlockCounts.target, Slashings.target]
  | .balance => [BalanceSummary.target]
  | .consensusRewards => [ConsensusRewards.target]
  | .executionRewards => [ExecutionRewards.target]
  | .totalPerformance => []

def statsTargets : List Target := Category.all.flatMap Category.targets

def Write.Into (targets : List Target) : Write → Prop
  | .merge b => b.target ∈ targets
  | _ => True

theorem Write.into_merge {targets : List Target} {t : Target} (member : t ∈ targets) (b : Batch)
    (same : b.target = t) : Into targets (.merge b) := by
  change b.target ∈ targets
  rwa [same]

namespace Program

variable {α β : Type} {own : Write → Prop}

abbrev IssuesOnly (own : Write → Prop) (p : Program α) : Prop := p.Only (Request.Within own)

namespace Only

theorem of_tidy {p : Program α} (tidy : p.Tidy own) : p.IssuesOnly own := of_keeps tidy

theorem gated {day : Day} {f : Unit → Program β} (next : ∀ a, (f a).IssuesOnly own) :
    ((ensureDayFinalized day).bind f).IssuesOnly own :=
  bind (bind (of_tidy (.read _)) fun _ => outcome _) next

theorem required {day : Day} {requirements : Checked Requirements} {f : Unit → Program β}
    (next : ∀ a, (f a).IssuesOnly own) :
    ((ofOutcome (.ofChecked requirements)).bind fun rs => (ensureExported day rs).bind f).IssuesOnly
      own :=
  bind (outcome _) fun rs => bind (of_keeps (ensureExported_keeps own day rs)) next

end Only
end Program

section Stages

variable (settings : Settings) (day : Day)

theorem failedAttestations_into : (FailedAttestations.stage settings day).IssuesOnly
    (Write.Into (Category.targets .failedAttestations)) := by
  refine .gated fun _ => .bind (.outcome _) fun windows => ?_
  refine .bind (.of_tidy (.fetches _ _)) fun partials => .bind (.outcome _) fun failures => ?_
  exact .bind (.of_tidy (.mergeRows _ _ _ _ (Write.into_merge (.head _)))) fun _ =>
    .of_tidy (.change _ trivial)

theorem syncDuties_into : (SyncDuties.stage settings day).IssuesOnly
    (Write.Into (Category.targets .syncDuties)) := by
  refine .gated fun _ => .bind (.of_tidy (.ask _)) fun duties => ?_
  exact .bind (.of_tidy (.mergeRowsTogether _ _ _ (Write.into_merge (.head _)))) fun _ =>
    .of_tidy (.change _ trivial)

theorem transfers_into : (Transfers.stage settings day).IssuesOnly
    (Write.Into (Category.targets .withdrawalsDeposits)) := by
  refine .gated fun _ => .bind (.outcome _) fun range => .bind (.outcome _) fun (first, stop) => ?_
  refine .bind (.of_tidy (Inquires.both (.read _) (.read _)).tidy) fun (deposits, withdrawals) => ?_
  refine .of_tidy (.planned fun depositBatches planned => ?_)
  refine .planned fun withdrawalBatches plannedToo => ?_
  split
  · exact .change _ trivial
  · refine .bind (.together _ ?_) fun _ => .change _ trivial
    intro w member
    obtain ⟨batch, inside, rfl⟩ := List.mem_map.mp member
    rcases List.mem_append.mp inside with deposit | withdrawal
    · exact Write.into_merge (.head _) batch (Batch.target_of_plan planned batch deposit)
    · exact Write.into_merge (.tail _ (.head _)) batch
        (Batch.target_of_plan plannedToo batch withdrawal)

theorem blockStats_into : (BlockStats.stage settings day).IssuesOnly
    (Write.Into (Category.targets .blockStats)) := by
  refine .gated fun _ => .of_tidy (.bind (Inquires.both (.read _) (.read _)).tidy ?_)
  rintro ⟨counts, slashings⟩
  refine .bind (.mergeRows _ _ _ _ (Write.into_merge (.head _))) fun _ => ?_
  exact .bind (.mergeRows _ _ _ _ (Write.into_merge (.tail _ (.head _)))) fun _ =>
    .change _ trivial

theorem balances_into : (BalanceSummary.stage settings day).IssuesOnly
    (Write.Into (Category.targets .balance)) := by
  refine .gated fun _ => .bind (.of_tidy (.ask _)) fun balances => ?_
  exact .bind (.of_tidy (.mergeRows _ _ _ _ (Write.into_merge (.head _)))) fun _ =>
    .of_tidy (.change _ trivial)

theorem consensusRewards_into : (ConsensusRewards.stage settings day).IssuesOnly
    (Write.Into (Category.targets .consensusRewards)) := by
  refine .gated fun _ => .required fun _ => .bind (.of_tidy (.ask _)) fun incomes => ?_
  refine .bind (.outcome _) fun rewards => .bind (.outcome _) fun proposers => ?_
  refine .bind (.of_tidy (.read _)) fun known => ?_
  let ranges := IndexRange.split (max known proposers) settings.upsertBatch
  have owned : ∀ jobs, ranges.mapM (ConsensusRewards.job day rewards) = .ok jobs →
      ∀ job ∈ jobs, ∀ w ∈ job.actions, w.Into (Category.targets .consensusRewards) :=
    (Stage.consensusRewards_jobs (Write.into_merge (.head _)) (fun _ => trivial) rewards ranges).2
  change IssuesOnly _
    ((ofOutcome (.ofStage (ranges.mapM (ConsensusRewards.job day rewards)))).bind _)
  cases planned : ranges.mapM (ConsensusRewards.job day rewards) with
  | error e => trivial
  | ok jobs =>
    change IssuesOnly _ (((settings.group "cl_rewards").run .writes jobs).bind _)
    exact .bind (.of_tidy (.writes _ jobs (owned jobs planned))) fun _ =>
      .of_tidy (.change _ trivial)

theorem executionRewards_into : (ExecutionRewards.stage settings day).IssuesOnly
    (Write.Into (Category.targets .executionRewards)) := by
  refine .gated fun _ => .bind (.of_tidy (.read _)) fun canonical => ?_
  refine .bind (.of_tidy (.ask _)) fun blocks => .bind (.of_tidy (.askRelays _)) fun bribes => ?_
  refine .bind (.outcome _) fun rewards => ?_
  exact .bind (.of_tidy (.mergeRowsTogether _ _ _ (Write.into_merge (.head _)))) fun _ =>
    .of_tidy (.change _ trivial)

theorem totalPerformance_into : (TotalPerformance.stage settings day).IssuesOnly
    (Write.Into (Category.targets .totalPerformance)) := by
  refine .gated fun _ => .required fun _ => .bind (.of_tidy (.read _)) fun count => ?_
  refine .of_tidy (.bind (.writes _ _ ?_) fun _ =>
    .bind (.change _ trivial) fun _ => .change _ trivial)
  intro job member w action
  obtain ⟨range, -, rfl⟩ := List.mem_map.mp member
  simp only [Job.actions, TotalPerformance.job, List.mem_cons, List.not_mem_nil, or_false] at action
  rcases action with rfl | rfl <;> trivial

theorem exportCategory_into (category : Category) :
    (exportCategory settings day category).IssuesOnly (Write.Into category.targets) := by
  cases category with
  | failedAttestations => exact failedAttestations_into settings day
  | syncDuties => exact syncDuties_into settings day
  | withdrawalsDeposits => exact transfers_into settings day
  | blockStats => exact blockStats_into settings day
  | balance => exact balances_into settings day
  | consensusRewards => exact consensusRewards_into settings day
  | executionRewards => exact executionRewards_into settings day
  | totalPerformance => exact totalPerformance_into settings day

end Stages

/-- Rows of distinct keys, merged batch by batch, come to the same stored rows in every order and
however often a batch is repeated. Statements of targets that are apart may change places, and any
two targets of the stages are apart. -/
theorem merges_converge {Cell : Type} [DecidableEq Cell] (l : Layout Cell) :
    (∀ (t : Target) (rows : List Row) (batchSize : Nat) (before : Database Cell),
      (∀ row ∈ rows, row.length = t.columns.length) → (rows.map (l.address t)).Nodup →
        ∃ batches after, Batch.plan t rows batchSize = .ok batches ∧
          l.Assigned t rows before after ∧
          ∀ executed, (∀ b, b ∈ executed ↔ b ∈ batches) → l.executeAll before executed = after) ∧
    (∀ a b : Batch, a.target.Apart b.target →
      ∀ db, l.execute (l.execute db a) b = l.execute (l.execute db b) a) ∧
    (∀ settings day category trace result,
      Runs (exportCategory settings day category) trace result →
        ∀ e ∈ trace, ∀ b, .merge b ∈ e.1.writes → b.target ∈ category.targets) ∧
    statsTargets.Pairwise Target.Apart ∧ ∀ t ∈ statsTargets, t.table = "validator_stats" := by
  refine ⟨?planned, fun a b apart db => l.execute_comm apart db, ?issued, by decide, by decide⟩
  case planned =>
    intro t rows batchSize before wide distinct
    have planned : Batch.plan t rows batchSize = .ok _ := Batch.plan_eq_ok.mpr ⟨wide, rfl⟩
    have inOrder := l.assigned_executeAll t planned distinct (fun _ => Iff.rfl) before
    refine ⟨_, _, planned, inOrder, fun executed all => ?_⟩
    exact (l.assigned_executeAll t planned distinct all before).unique l t inOrder
  case issued =>
    intro settings day category trace result run e member b merged
    exact (exportCategory_into settings day category).asked run e member _ merged

def threeDuties : List Row := [⟨5, 7, 1, 0⟩, ⟨6, 8, 0, 0⟩, ⟨9, 0, 8, 0⟩].map (SyncDuties.row ⟨4⟩)

theorem merges_converge_repeated : ∃ first second after,
    Batch.plan SyncDuties.target threeDuties 2 = .ok [first, second] ∧
      Layout.plain.Assigned SyncDuties.target threeDuties (fun _ => none) after ∧
      Layout.plain.executeAll (fun _ => none) [second, first, second] = after := by
  obtain ⟨batches, after, planned, assigned, same⟩ := (merges_converge .plain).1 SyncDuties.target
    threeDuties 2 (fun _ => none) (by decide) (by decide)
  obtain ⟨-, rfl⟩ := Batch.plan_eq_ok.mp planned
  have two : Batch.pieces (SyncDuties.target.clampBatch 2 - 1) threeDuties =
      [threeDuties.take 2, threeDuties.drop 2] := by cbv
  rw [two] at planned same
  refine ⟨_, _, after, planned, assigned, same _ fun b => ?_⟩
  simp only [List.map_cons, List.map_nil, List.mem_cons, List.not_mem_nil, or_false]
  exact ⟨fun member => member.elim .inr id, .inr⟩

end ValidatorDays
