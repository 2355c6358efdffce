import Mathlib
import ValidatorDays.Proofs.Chain.Tiles
import ValidatorDays.Proofs.Stage.Conduct
import ValidatorDays.Proofs.Status.Books
import ValidatorDays.Proofs.Work.Issued

namespace ValidatorDays

open Program

inductive RangeWork where
  | income
  | totals
  | performance

/-- The statement works it out for the validator. -/
def Write.serves (day : Day) (i : ValidatorIndex) : RangeWork → Write → Bool
  | .income, .deriveRewards d range | .totals, .cumulativeTotals d range
  | .performance, .performanceSnapshot d range => decide (d = day ∧ i ∈ range)
  | _, _ => false

theorem issued_of_group {g : Group} {jobs : List (Job Write)} {trace : List Event}
    {outcome : Outcome (List Unit)} (run : Runs (g.run .writes jobs) trace outcome) :
    (trace.flatMap Event.startsWrite).Subperm (jobs.flatMap Job.actions) := by
  have issued := (Carrier.traced_writes.run g).ends run
  cases outcome with
  | ok all => exact issued.1.subperm
  | error cause => exact issued

theorem landed_of_group {g : Group} {jobs : List (Job Write)} {trace : List Event}
    {results : List Unit} (run : Runs (g.run .writes jobs) trace (.ok results)) :
    (trace.flatMap Event.startsWrite).Perm (jobs.flatMap Job.actions) ∧
      (trace.flatMap Event.landsWrite).Perm (jobs.flatMap Job.actions) := by
  have all : ∀ job ∈ jobs, ∀ w ∈ job.actions, True := fun _ _ _ _ => trivial
  have issued := ((Carrier.traced_writes.run g).ends run).1
  have answered := ((Tidy.writes g jobs all).ends run).writes
  rw [List.append_nil] at answered
  exact ⟨issued, answered.symm.trans issued⟩

/-- So many statements that work it out for the validator have been issued, and as many have been
answered well. -/
structure Served (work : RangeWork) (day : Day) (i : ValidatorIndex) (times : Nat)
    (trace : List Event) : Prop where
  issued : (trace.flatMap Event.startsWrite).countP (Write.serves day i work) = times
  answered : (trace.flatMap Event.landsWrite).countP (Write.serves day i work) = times

theorem Served.group {work : RangeWork} {day : Day} {i : ValidatorIndex} {g : Group}
    {jobs : List (Job Write)} {trace : List Event} {results : List Unit}
    (run : Runs (g.run .writes jobs) trace (.ok results)) : Served work day i
      ((jobs.flatMap Job.actions).countP (Write.serves day i work)) trace :=
  ⟨(landed_of_group run).1.countP_eq _, (landed_of_group run).2.countP_eq _⟩

theorem writes_of_others {trace : List Event} (others : ∀ e ∈ trace, ¬ e.1.OfWrites) :
    trace.flatMap Event.startsWrite = [] ∧ trace.flatMap Event.landsWrite = [] := by
  simp only [List.flatMap_eq_nil_iff]
  exact ⟨fun e member => Event.startsWrite_eq_nil (others e member),
    fun e member => Event.landsWrite_eq_nil (others e member)⟩

def Request.Prepares : Request → Prop
  | .query (.finalizedEpochs _) | .query (.status _) | .indexer _ => True
  | _ => False

theorem Request.Prepares.not_ofWrites {r : Request} (prepares : r.Prepares) : ¬ r.OfWrites := by
  unfold OfWrites
  split
  · exact fun _ => prepares
  · exact fun _ => prepares
  · exact fun _ => prepares
  · exact id

def Request.OfGate : Request → Prop
  | .query (.finalizedEpochs _) | .query (.status _) => True
  | _ => False

theorem Request.OfGate.prepares {r : Request} (asks : r.OfGate) : r.Prepares := by
  unfold OfGate at asks
  split at asks
  · trivial
  · trivial
  · exact asks.elim

theorem ensureDayFinalized_gate (day : Day) : (ensureDayFinalized day).Only Request.OfGate :=
  .bind (.read trivial) fun _ => .outcome _

theorem ensureExported_gate (day : Day) (rs : Requirements) :
    (ensureExported day rs).Only Request.OfGate := by
  have missing : (missingExports rs).Only Request.OfGate := by
    induction rs with
    | nil => exact .done _
    | cons r rest ih =>
      exact .bind (.bind (.ask trivial .ofDatabase) fun _ => .done _) fun _ =>
        .bind ih fun _ => .done _
  refine .bind missing.mapFailure fun missing => ?_
  cases missing with
  | nil => exact .done _
  | cons first others => exact .fail _

section Stage

variable {early worked late : List Event} {g : Group} {jobs : List (Job Write)}
  {results : List Unit} {known count : Int}

theorem writes_of_stage (known : Int) (worked : List Event)
    (prepares : ∀ e ∈ early, e.1.Prepares) (ends : ∀ e ∈ late, ∃ w, e.1 = .write w) :
    (early ++ ⟨.query .validatorCount, .ok known⟩ :: (worked ++ late)).flatMap Event.startsWrite =
      worked.flatMap Event.startsWrite ∧
    (early ++ ⟨.query .validatorCount, .ok known⟩ :: (worked ++ late)).flatMap Event.landsWrite =
      worked.flatMap Event.landsWrite := by
  have before := writes_of_others fun e member => (prepares e member).not_ofWrites
  have after : late.flatMap Event.startsWrite = [] ∧ late.flatMap Event.landsWrite = [] := by
    refine writes_of_others fun e member asks => ?_
    obtain ⟨w, same⟩ := ends e member
    rw [same] at asks
    exact asks
  constructor
  · rw [List.flatMap_append, List.flatMap_cons, List.flatMap_append, before.1, after.1]
    exact List.append_nil _
  · rw [List.flatMap_append, List.flatMap_cons, List.flatMap_append, before.2, after.2]
    exact List.append_nil _

theorem count_of_stage {outcome : Outcome (List Unit)} (prepares : ∀ e ∈ early, e.1.Prepares)
    (works : Runs (g.run .writes jobs) worked outcome) (ends : ∀ e ∈ late, ∃ w, e.1 = .write w)
    (counted : ⟨.query .validatorCount, .ok count⟩ ∈
      early ++ ⟨.query .validatorCount, .ok known⟩ :: (worked ++ late)) : count = known := by
  rcases List.mem_append.mp counted with before | now
  · exact (prepares _ before).elim
  · rcases List.mem_cons.mp now with same | later
    · cases same
      rfl
    · rcases List.mem_append.mp later with amid | after
      · exact ((Carrier.asks_writes g jobs).asked works _ amid).elim
      · obtain ⟨w, same⟩ := ends _ after
        cases same

theorem served_of_stage (prepares : ∀ e ∈ early, e.1.Prepares)
    (works : Runs (g.run .writes jobs) worked (.ok results))
    (ends : ∀ e ∈ late, ∃ w, e.1 = .write w)
    (counted : ⟨.query .validatorCount, .ok count⟩ ∈
      early ++ ⟨.query .validatorCount, .ok known⟩ :: (worked ++ late)) :
    count = known ∧ ∀ (work : RangeWork) (day : Day) (i : ValidatorIndex), Served work day i
      ((jobs.flatMap Job.actions).countP (Write.serves day i work))
      (early ++ ⟨.query .validatorCount, .ok known⟩ :: (worked ++ late)) := by
  refine ⟨count_of_stage prepares works ends counted, fun work day i => ?_⟩
  have served : Served work day i _ worked := .group works
  obtain ⟨started, landed⟩ := writes_of_stage known worked prepares ends
  exact ⟨started ▸ served.issued, landed ▸ served.answered⟩

end Stage

namespace TotalPerformance

theorem actions_serve (day : Day) (ranges : List IndexRange) (i : ValidatorIndex)
    {work : RangeWork} (own : work ≠ .income) :
    ((ranges.map (job day)).flatMap Job.actions).countP (Write.serves day i work) =
      ranges.countP (i ∈ ·) := by
  induction ranges with
  | nil => rfl
  | cons range others ih =>
    rw [List.map_cons, List.flatMap_cons, List.countP_append, ih, List.countP_cons]
    cases work with
    | income => exact absurd rfl own
    | totals => simp [Job.actions, job, Write.serves, List.countP_cons, Nat.add_comm]
    | performance => simp [Job.actions, job, Write.serves, List.countP_cons, Nat.add_comm]

theorem stage_serves {settings : Settings} {day : Day} {trace : List Event} {count : Int}
    (run : Runs (stage settings day) trace (.ok ()))
    (counted : ⟨.query .validatorCount, .ok count⟩ ∈ trace) {work : RangeWork}
    (own : work ≠ .income) (i : ValidatorIndex) : Served work day i
      ((IndexRange.split count settings.performanceBatch).countP (i ∈ ·)) trace := by
  obtain ⟨gate, _, _, rfl, gated, passed⟩ := run.bind_ok
  obtain ⟨rs, -, needed⟩ := passed.checked_ok
  obtain ⟨shown, _, _, rfl, requires, met⟩ := needed.bind_ok
  obtain ⟨known, _, rfl, ranged⟩ := met.read_ok
  have ranged : Runs (((settings.group "total_performance").run .writes
      ((IndexRange.split known settings.performanceBatch).map (job day))).bind fun _ =>
        (writeStage .rankPerformance).bind fun _ => markExported day .totalPerformance) _
      (.ok ()) := ranged
  obtain ⟨worked, results, _, rfl, works, ended⟩ := ranged.bind_ok
  obtain ⟨_, _, _, rfl, ranks, marks⟩ := ended.bind_ok
  cases ranks.writeStage_ok
  cases marks.writeStage_ok
  have prepares : ∀ e ∈ gate ++ shown, e.1.Prepares := by
    intro e member
    rcases List.mem_append.mp member with first | second
    · exact ((ensureDayFinalized_gate day).asked gated e first).prepares
    · exact ((ensureExported_gate day rs).asked requires e second).prepares
  rw [← List.append_assoc] at counted ⊢
  obtain ⟨rfl, serves⟩ := served_of_stage prepares works (by simp) counted
  rw [← actions_serve day _ i own]
  exact serves work day i

end TotalPerformance

namespace ConsensusRewards

theorem proposerCount_mem {rewards : Rewards} {proposers : Int}
    (highest : proposerCount rewards = .ok proposers) : proposers ∈ Bounds.int32 := by
  unfold proposerCount at highest
  split at highest
  · cases highest
    decide
  · obtain ⟨inside, same⟩ := Bounds.check_eq_ok_iff.mp highest
    exact same ▸ inside

theorem jobs_serve {day : Day} {rewards : Rewards} {ranges : List IndexRange}
    {jobs : List (Job Write)} (planned : ranges.mapM (job day rewards) = .ok jobs)
    (i : ValidatorIndex) : (jobs.flatMap Job.actions).countP (Write.serves day i .income) =
      ranges.countP (i ∈ ·) := by
  have each := mapM_ok planned
  clear planned
  induction each with
  | nil => rfl
  | @cons range made others more first _ ih =>
    obtain ⟨batches, -, actions⟩ := Stage.consensusRewards_job_actions first
    have merges : (batches.map Write.merge).countP (Write.serves day i .income) = 0 := by
      simp [Write.serves]
    rw [List.flatMap_cons, List.countP_append, ih, actions, List.countP_append, merges,
      List.countP_cons]
    simp [Write.serves, List.countP_cons, Nat.add_comm]

/-- What a run asks that comes to a good end, from its gates to its mark. What proposers earned is
told once. -/
theorem stage_ok {settings : Settings} {day : Day} {trace : List Event}
    (run : Runs (stage settings day) trace (.ok ())) :
    ∃ early incomes rewards proposers known jobs worked results,
      trace = early ++ ⟨.query .validatorCount, .ok known⟩ ::
        (worked ++ [⟨.write (.markExported day .consensusRewards), .ok ()⟩]) ∧
      (∀ e ∈ early, e.1.Prepares) ∧
      (∀ told, ⟨.indexer (.proposerIncome day.epochs), .ok told⟩ ∈ trace ↔ told = incomes) ∧
      rewardsOf incomes = .ok rewards ∧ proposerCount rewards = .ok proposers ∧
      (IndexRange.split (max known proposers) settings.upsertBatch).mapM (job day rewards) =
        .ok jobs ∧
      Runs ((settings.group "cl_rewards").run .writes jobs) worked (.ok results) := by
  obtain ⟨gate, _, _, rfl, gated, passed⟩ := run.bind_ok
  obtain ⟨rs, -, needed⟩ := passed.checked_ok
  obtain ⟨shown, _, _, rfl, requires, met⟩ := needed.bind_ok
  obtain ⟨incomes, _, rfl, earned⟩ := met.ask_ok
  obtain ⟨rewards, rewarded, summed⟩ := earned.checked_ok
  obtain ⟨proposers, highest, counting⟩ := summed.checked_ok
  obtain ⟨known, _, rfl, ranged⟩ := counting.read_ok
  obtain ⟨jobs, planned, issued⟩ := ranged.staged_ok
  have issued : Runs (((settings.group "cl_rewards").run .writes jobs).bind fun _ =>
      markExported day .consensusRewards) _ (.ok ()) := issued
  obtain ⟨worked, results, _, rfl, works, marks⟩ := issued.bind_ok
  cases marks.writeStage_ok
  have gates : ∀ e ∈ gate ++ shown, e.1.OfGate := List.forall_mem_append.mpr
    ⟨(ensureDayFinalized_gate day).asked gated, (ensureExported_gate day rs).asked requires⟩
  refine ⟨gate ++ shown ++ [⟨.indexer (.proposerIncome day.epochs), .ok incomes⟩], incomes, rewards,
    proposers, known, jobs, worked, results, by simp, ?_, fun told => ⟨fun member => ?_, ?_⟩,
    rewarded, highest, planned, works⟩
  · exact List.forall_mem_append.mpr ⟨fun e member => (gates e member).prepares, by
      simp [Request.Prepares]⟩
  · have atWork := (Carrier.asks_writes _ _).asked works
    simp only [List.mem_append, List.mem_cons, List.not_mem_nil, or_false] at member
    rcases member with before | before | same | same | amid | same
    · exact (gates _ (List.mem_append_left _ before)).elim
    · exact (gates _ (List.mem_append_right _ before)).elim
    · cases same
      rfl
    · cases same
    · exact (atWork _ amid).elim
    · cases same
  · rintro rfl
    simp

theorem stage_serves {settings : Settings} {day : Day} {trace : List Event} {count : Int}
    (run : Runs (stage settings day) trace (.ok ()))
    (counted : ⟨.query .validatorCount, .ok count⟩ ∈ trace) :
    ∃ incomes rewards proposers, ⟨.indexer (.proposerIncome day.epochs), .ok incomes⟩ ∈ trace ∧
      rewardsOf incomes = .ok rewards ∧ proposerCount rewards = .ok proposers ∧
      ∀ i, Served .income day i
        ((IndexRange.split (max count proposers) settings.upsertBatch).countP (i ∈ ·)) trace := by
  obtain ⟨early, incomes, rewards, proposers, known, jobs, worked, results, rfl, prepares, told,
    rewarded, highest, planned, works⟩ := stage_ok run
  obtain ⟨rfl, serves⟩ := served_of_stage prepares works (by simp) counted
  refine ⟨incomes, rewards, proposers, (told incomes).mpr rfl, rewarded, highest, fun i => ?_⟩
  rw [← jobs_serve planned i]
  exact serves .income day i

end ConsensusRewards

/-- The ranges tile all validators, each of at most as many as the settings say, just if the step
has no more than 32 bits or its low bits reach far enough. Whatever the step, the stages that go
through the ranges serve each validator once that they reach, and no other. -/
theorem IndexRange.tiles_unless_step_wraps {count : Int} (known : count ∈ Bounds.int32)
    (size : Nat) :
    (Tiles (max size 1) 0 ((split count size).map stretch) (max count 0) ↔
      count ≤ 0 ∨ (size : Int) ≤ Bounds.int32.greatest ∨ count ≤ Bounds.int32.wrap size) ∧
    (reach count size = max count 0 ↔
      count ≤ 0 ∨ (size : Int) ≤ Bounds.int32.greatest ∨ count ≤ Bounds.int32.wrap size) ∧
    (∀ i : ValidatorIndex,
      (split count size).countP (i ∈ ·) = if 0 ≤ i ∧ i < reach count size then 1 else 0) ∧
    (∀ (settings : Settings) (day : Day) (trace : List Event), settings.performanceBatch = size →
      Runs (TotalPerformance.stage settings day) trace (.ok ()) →
      ⟨.query .validatorCount, .ok count⟩ ∈ trace → ∀ work, work ≠ .income → ∀ i,
        Served work day i (if 0 ≤ i ∧ i < reach count size then 1 else 0) trace) ∧
    ∀ (settings : Settings) (day : Day) (trace : List Event), settings.upsertBatch = size →
      Runs (ConsensusRewards.stage settings day) trace (.ok ()) →
      ⟨.query .validatorCount, .ok count⟩ ∈ trace → ∃ incomes rewards proposers,
        ⟨.indexer (.proposerIncome day.epochs), .ok incomes⟩ ∈ trace ∧
        ConsensusRewards.rewardsOf incomes = .ok rewards ∧
        ConsensusRewards.proposerCount rewards = .ok proposers ∧ ∀ i, Served .income day i
          (if 0 ≤ i ∧ i < reach (max count proposers) size then 1 else 0) trace := by
  refine ⟨(tiles_split_iff known size).trans reach_eq_iff, reach_eq_iff, count_split known size,
    ?_, ?_⟩
  · rintro settings day trace rfl run counted work own i
    rw [← count_split known]
    exact TotalPerformance.stage_serves run counted own i
  · rintro settings day trace rfl run counted
    obtain ⟨incomes, rewards, proposers, told, rewarded, highest, served⟩ :=
      ConsensusRewards.stage_serves run counted
    have inside : max count proposers ∈ Bounds.int32 := by
      obtain ⟨least, greatest⟩ := known
      obtain ⟨-, greatestToo⟩ := ConsensusRewards.proposerCount_mem highest
      exact ⟨le_max_of_le_left least, max_le greatest greatestToo⟩
    refine ⟨incomes, rewards, proposers, told, rewarded, highest, fun i => ?_⟩
    rw [← count_split inside]
    exact served i

/-- Everything of every day is exported, and there are ten validators. -/
def tenValidators : (r : Request) → r.Answer :=
  Books.calmAnswer 10 fun _ => some ⟨true, fun _ => true⟩

def batchesOf (size : Nat) : Settings :=
  { Settings.standard with performanceBatch := size, upsertBatch := size }

theorem ten_validators_totals : ∃ trace,
    Runs (TotalPerformance.stage (batchesOf 4) ⟨1⟩) trace (.ok ()) ∧
      ⟨.query .validatorCount, .ok (10 : Int)⟩ ∈ trace := by
  have run := runs_observe (steady tenValidators) (TotalPerformance.stage (batchesOf 4) ⟨1⟩) ()
  have well : ((TotalPerformance.stage (batchesOf 4) ⟨1⟩).observe
      (steady tenValidators) ()).2 = .ok () := by cbv
  have counted : ((TotalPerformance.stage (batchesOf 4) ⟨1⟩).observe
      (steady tenValidators) ()).1[5]? = some ⟨.query .validatorCount, .ok (10 : Int)⟩ := by cbv
  rw [well] at run
  exact ⟨_, run, List.mem_of_getElem? counted⟩

theorem ten_validators_income : ∃ trace,
    Runs (ConsensusRewards.stage (batchesOf 4) ⟨1⟩) trace (.ok ()) ∧
      ⟨.query .validatorCount, .ok (10 : Int)⟩ ∈ trace ∧ ∀ range incomes,
        ⟨.indexer (.proposerIncome range), .ok incomes⟩ ∈ trace → incomes = [] := by
  have run := runs_observe (steady tenValidators) (ConsensusRewards.stage (batchesOf 4) ⟨1⟩) ()
  have well : ((ConsensusRewards.stage (batchesOf 4) ⟨1⟩).observe
      (steady tenValidators) ()).2 = .ok () := by cbv
  have counted : ((ConsensusRewards.stage (batchesOf 4) ⟨1⟩).observe
      (steady tenValidators) ()).1[6]? = some ⟨.query .validatorCount, .ok (10 : Int)⟩ := by cbv
  rw [well] at run
  refine ⟨_, run, List.mem_of_getElem? counted, fun range incomes told => ?_⟩
  exact Except.ok.inj (steady_answers tenValidators _ _ told)

theorem IndexRange.tiles_unless_step_wraps_ten : (10 : Int) ∈ Bounds.int32 ∧
    Tiles 4 0 ((split 10 4).map stretch) 10 ∧ ∃ totals income,
      Runs (TotalPerformance.stage (batchesOf 4) ⟨1⟩) totals (.ok ()) ∧
      Runs (ConsensusRewards.stage (batchesOf 4) ⟨1⟩) income (.ok ()) ∧ ∀ i,
        Served .totals ⟨1⟩ i (if 0 ≤ i ∧ i < 10 then 1 else 0) totals ∧
        Served .performance ⟨1⟩ i (if 0 ≤ i ∧ i < 10 then 1 else 0) totals ∧
        Served .income ⟨1⟩ i (if 0 ≤ i ∧ i < 10 then 1 else 0) income := by
  have known : (10 : Int) ∈ Bounds.int32 := by decide
  obtain ⟨totals, summed, counted⟩ := ten_validators_totals
  obtain ⟨income, derived, countedToo, nobody⟩ := ten_validators_income
  obtain ⟨tiles, -, -, serves, servesToo⟩ := tiles_unless_step_wraps known 4
  obtain ⟨incomes, rewards, proposers, told, rewarded, highest, served⟩ :=
    servesToo (batchesOf 4) ⟨1⟩ income rfl derived countedToo
  obtain rfl := nobody _ _ told
  cases rewarded
  cases highest
  refine ⟨known, tiles.mpr (by decide), totals, income, summed, derived,
    fun i => ⟨?_, ?_, served i⟩⟩
  · exact serves (batchesOf 4) ⟨1⟩ totals rfl summed counted .totals nofun i
  · exact serves (batchesOf 4) ⟨1⟩ totals rfl summed counted .performance nofun i

/-- A step of 2^32 has no low bits. The one range of it is empty, and the stage that works out the
totals comes to a good end without those of anybody. -/
theorem IndexRange.wrapped_step_serves_nobody : split 10 4294967296 = [⟨0, 0⟩] ∧
    ¬ Tiles (max 4294967296 1) 0 ((split 10 4294967296).map stretch) (max 10 0) ∧ ∃ trace,
      Runs (TotalPerformance.stage (batchesOf 4294967296) ⟨1⟩) trace (.ok ()) ∧
      ⟨.query .validatorCount, .ok (10 : Int)⟩ ∈ trace ∧ ∀ i, Served .totals ⟨1⟩ i 0 trace := by
  have one : split 10 4294967296 = [⟨0, 0⟩] := by decide
  refine ⟨one, ?_, ?_⟩
  · rw [one]
    intro tiles
    cases tiles with
    | cons proper narrow others => exact absurd proper (by decide)
  · let stage := TotalPerformance.stage (batchesOf 4294967296) ⟨1⟩
    have run := runs_observe (steady tenValidators) stage ()
    have well : (stage.observe (steady tenValidators) ()).2 = .ok () := by cbv
    have counted : (stage.observe (steady tenValidators) ()).1[5]? =
        some ⟨.query .validatorCount, .ok (10 : Int)⟩ := by cbv
    rw [well] at run
    refine ⟨_, run, List.mem_of_getElem? counted, fun i => ?_⟩
    have unserved : (split 10 4294967296).countP (i ∈ ·) = 0 := by
      have short : reach 10 4294967296 = 0 := by decide
      rw [count_split (by decide), short, if_neg (by omega)]
    have own : RangeWork.totals ≠ .income := by simp
    rw [← unserved]
    exact TotalPerformance.stage_serves run (List.mem_of_getElem? counted) own i

end ValidatorDays
