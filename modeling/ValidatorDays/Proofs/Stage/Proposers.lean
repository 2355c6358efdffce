import Mathlib
import ValidatorDays.Proofs.Stage.Validators
import ValidatorDays.Proofs.Tally.Entries
import ValidatorDays.Proofs.Upsert.Written
import ValidatorDays.Proofs.Work.Order

namespace ValidatorDays

open Program

namespace ProposerIncome

def earned (income : ProposerIncome) : Int :=
  income.attestations.count + income.slashings.count + income.syncDuties.count

theorem total_eq_ok {income : ProposerIncome} {total : Gwei} (summed : income.total = .ok total) :
    total = ⟨income.earned⟩ := by
  obtain ⟨part, first, second⟩ := bind_eq_ok.mp summed
  unfold Amount.add at first second
  split at first
  · cases first
    split at second
    · cases second
      rfl
    · cases second
  · cases first

end ProposerIncome

namespace ConsensusRewards

def earnedBy (incomes : List ProposerIncome) (i : ValidatorIndex) : Int :=
  ((incomes.find? (·.index = i)).map ProposerIncome.earned).getD 0

theorem rewardsOf_ok {incomes : List ProposerIncome} {rewards : Rewards}
    (rewarded : rewardsOf incomes = .ok rewards) :
    rewards = incomes.map fun income => (income.index, ⟨income.earned⟩) := by
  have each := mapM_ok rewarded
  clear rewarded
  induction each with
  | nil => rfl
  | @cons income entry others more first _ ih =>
    obtain ⟨total, summed, same⟩ := bind_eq_ok.mp first
    cases same
    rw [List.map_cons, ih, income.total_eq_ok summed]

theorem earnedBy_cons (income : ProposerIncome) (others : List ProposerIncome)
    (i : ValidatorIndex) : earnedBy (income :: others) i =
      if income.index = i then income.earned else earnedBy others i := by
  unfold earnedBy
  rw [List.find?_cons]
  by_cases same : income.index = i
  · rw [if_pos same, decide_eq_true same]
    rfl
  · rw [if_neg same, decide_eq_false same]

theorem earnedBy_absent {incomes : List ProposerIncome} {i : ValidatorIndex}
    (absent : i ∉ incomes.map ProposerIncome.index) : earnedBy incomes i = 0 := by
  have unfound : incomes.find? (·.index = i) = none := by
    refine List.find?_eq_none.mpr fun income member same => absent ?_
    exact of_decide_eq_true same ▸ List.mem_map_of_mem member
  rw [earnedBy, unfound]
  rfl

theorem lastFor?_rewards {incomes : List ProposerIncome}
    (distinct : (incomes.map ProposerIncome.index).Nodup) (i : ValidatorIndex) :
    (lastFor? i (incomes.map fun income => (income.index, (⟨income.earned⟩ : Gwei)))).getD .zero =
      ⟨earnedBy incomes i⟩ := by
  induction incomes with
  | nil => rfl
  | cons income others ih =>
    obtain ⟨absent, distinct⟩ := List.nodup_cons.mp distinct
    rw [List.map_cons, lastFor?_cons, earnedBy_cons]
    by_cases same : income.index = i
    · have unlisted :
          lastFor? i (others.map fun income => (income.index, (⟨income.earned⟩ : Gwei))) =
            none := by
        refine lastFor?_eq_none fun e member again => absent ?_
        obtain ⟨other, inside, rfl⟩ := List.mem_map.mp member
        exact same.trans again.symm ▸ List.mem_map_of_mem inside
      rw [unlisted, if_pos same, if_pos same]
      rfl
    · rw [if_neg same, if_neg same, Option.or_none, ih distinct]

theorem sum_earnedBy {incomes : List ProposerIncome}
    (distinct : (incomes.map ProposerIncome.index).Nodup) {n : Nat}
    (inside : ∀ income ∈ incomes, 0 ≤ income.index ∧ income.index < n) :
    ((List.range n).map fun k : Nat => earnedBy incomes k).sum =
      (incomes.map ProposerIncome.earned).sum := by
  induction incomes with
  | nil => simp [earnedBy]
  | cons income others ih =>
    obtain ⟨absent, distinct⟩ := List.nodup_cons.mp distinct
    obtain ⟨⟨nonneg, below⟩, others_inside⟩ := List.forall_mem_cons.mp inside
    obtain ⟨place, same⟩ := Int.eq_ofNat_of_zero_le nonneg
    have split (k : Nat) : earnedBy (income :: others) k =
        (if place = k then income.earned else 0) + earnedBy others k := by
      rw [earnedBy_cons, same]
      by_cases here : place = k
      · subst here
        rw [if_pos rfl, if_pos rfl, ← same, earnedBy_absent absent, Int.add_zero]
      · rw [if_neg here, if_neg fun same => here (Int.ofNat_inj.mp same), Int.zero_add]
    have once : ((List.range n).map fun k => if place = k then income.earned else 0).sum =
        income.earned := by
      rw [same] at below
      show (∑ k ∈ Finset.range n, if place = k then income.earned else 0) = income.earned
      rw [Finset.sum_ite_eq, if_pos (Finset.mem_range.mpr (Int.ofNat_lt.mp below))]
    simp only [split]
    rw [List.sum_map_add, once, ih distinct others_inside, List.map_cons, List.sum_cons]

theorem proposerCount_ok {rewards : Rewards} {proposers : Int}
    (highest : proposerCount rewards = .ok proposers) : (∀ e ∈ rewards, e.1 < proposers) ∧
      (proposers = 0 ∨ ∃ e ∈ rewards, proposers = e.1 + 1) := by
  unfold proposerCount at highest
  split at highest
  case h_1 none =>
    cases highest
    rw [List.map_eq_nil_iff.mp none]
    exact ⟨List.forall_mem_nil _, .inl rfl⟩
  case h_2 first rest indices =>
    obtain ⟨-, rfl⟩ := Bounds.check_eq_ok_iff.mp highest
    obtain ⟨attained, atMost⟩ := List.max?_eq_some_iff.mp
      (List.max?_cons' : (first :: rest).max? = some (rest.foldl max first))
    rw [← indices] at attained atMost
    refine ⟨fun e member => Int.lt_add_one_of_le (atMost _ (List.mem_map_of_mem member)), .inr ?_⟩
    obtain ⟨e, member, same⟩ := List.mem_map.mp attained
    exact ⟨e, member, by rw [same]⟩

def rewardsIn : Row → Int
  | [_, _, .int8 n] => n
  | _ => 0

theorem rows_eq {incomes : List ProposerIncome} {rewards : Rewards}
    (rewarded : rewardsOf incomes = .ok rewards)
    (distinct : (incomes.map ProposerIncome.index).Nodup) (day : Day) (range : IndexRange) :
    rows day range rewards = range.indices.map fun i => row day i ⟨earnedBy incomes i⟩ := by
  rw [rows, rewardsOf_ok rewarded]
  exact List.map_congr_left fun i _ => congrArg (row day i) (lastFor?_rewards distinct i)

theorem jobs_rows {day : Day} {rewards : Rewards} {ranges : List IndexRange}
    {jobs : List (Job Write)} (planned : ranges.mapM (job day rewards) = .ok jobs) :
    (jobs.flatMap Job.actions).flatMap Write.rows =
      ranges.flatMap fun range => rows day range rewards := by
  have each := mapM_ok planned
  clear planned
  induction each with
  | nil => rfl
  | @cons range made others more first _ ih =>
    obtain ⟨batches, cut, actions⟩ := Stage.consensusRewards_job_actions first
    have own : made.actions.flatMap Write.rows = rows day range rewards := by
      rw [actions, List.flatMap_append, List.flatMap_map, List.flatMap_singleton]
      exact (List.append_nil _).trans (Batch.rows_of_plan cut)
    rw [List.flatMap_cons, List.flatMap_append, own, ih, List.flatMap_cons]

/-- All validators that are counted or have proposed come before `stop`, and not all of them come
before anything less. -/
structure Reaches (known : Int) (incomes : List ProposerIncome) (stop : Int) : Prop where
  counted : known ≤ stop
  proposed : ∀ income ∈ incomes, income.index < stop
  attained : stop = known ∨ ∃ income ∈ incomes, stop = income.index + 1

/-- Rows for proposers, or the income of the day that is derived from them. -/
def WritesIncome (day : Day) : Write → Prop
  | .merge batch => batch.target = target
  | .deriveRewards d _ => d = day
  | _ => False

/-- Each validator before `stop` has one row with what it earned, so that the rows hold all incomes.
Its own income is derived once, and the row is there by then. -/
structure Conserved (day : Day) (incomes : List ProposerIncome) (stop : Nat)
    (trace : List Event) : Prop where
  answered : (trace.flatMap Event.startsWrite).Perm (trace.flatMap Event.landsWrite)
  statements : ∀ w ∈ trace.flatMap Event.landsWrite, WritesIncome day w
  rows : ((trace.flatMap Event.landsWrite).flatMap Write.rows).Perm
    ((List.range stop).map fun k : Nat => row day k ⟨earnedBy incomes k⟩)
  total : (((trace.flatMap Event.landsWrite).flatMap Write.rows).map rewardsIn).sum =
    (incomes.map ProposerIncome.earned).sum
  derived : ∀ i, Served .income day i (if 0 ≤ i ∧ i < stop then 1 else 0) trace
  behind : ∀ before range answer after,
    trace = before ++ ⟨.startWrite (.deriveRewards day range), answer⟩ :: after →
      ∀ i ∈ range, ∃ batch, .merge batch ∈ before.flatMap Event.landsWrite ∧
        row day i ⟨earnedBy incomes i⟩ ∈ batch.rows

section Jobs

variable {day : Day} {incomes : List ProposerIncome} {rewards : Rewards} {known proposers : Int}
  {ranges : List IndexRange} {jobs : List (Job Write)}

theorem reaches_max (rewarded : rewardsOf incomes = .ok rewards)
    (highest : proposerCount rewards = .ok proposers) (nonneg : 0 ≤ known) :
    Reaches known incomes (max known proposers) := by
  obtain ⟨upper, attained⟩ := proposerCount_ok highest
  rw [rewardsOf_ok rewarded] at upper attained
  refine ⟨Int.le_max_left _ _, fun income member => ?_, ?_⟩
  · exact Int.lt_of_lt_of_le (upper _ (List.mem_map_of_mem member)) (Int.le_max_right _ _)
  · rcases Int.le_total proposers known with fewer | more
    · exact .inl (Int.max_eq_left fewer)
    · rw [Int.max_eq_right more]
      rcases attained with zero | ⟨e, member, last⟩
      · exact .inl (by omega)
      · obtain ⟨income, inside, rfl⟩ := List.mem_map.mp member
        exact .inr ⟨income, inside, last⟩

theorem jobs_statements (planned : ranges.mapM (job day rewards) = .ok jobs) :
    ∀ w ∈ jobs.flatMap Job.actions, WritesIncome day w := by
  intro w issued
  obtain ⟨made, given, action⟩ := List.mem_flatMap.mp issued
  obtain ⟨range, -, first⟩ := mapM_mem planned given
  have merges : ∀ batch : Batch, batch.target = target → WritesIncome day (.merge batch) :=
    fun _ => id
  have derives : WritesIncome day (.deriveRewards day range) := rfl
  exact Stage.consensusRewards_job_owned merges derives first w action

theorem rows_before_derived (planned : ranges.mapM (job day rewards) = .ok jobs) {made : Job Write}
    (given : made ∈ jobs) {range : IndexRange} {done rest : List Write}
    (actions : made.actions = done ++ .deriveRewards day range :: rest) :
    ∃ batches, Batch.plan target (rows day range rewards) (rows day range rewards).length =
      .ok batches ∧ done = batches.map .merge := by
  obtain ⟨own, -, first⟩ := mapM_mem planned given
  obtain ⟨batches, cut, parts⟩ := Stage.consensusRewards_job_actions first
  rw [parts] at actions
  rcases List.eq_nil_or_concat' rest with rfl | ⟨others, last, rfl⟩
  · obtain ⟨same, derives⟩ := List.append_inj' actions rfl
    cases derives
    exact ⟨batches, cut, same.symm⟩
  · rw [← List.cons_append, ← List.append_assoc] at actions
    obtain ⟨same, -⟩ := List.append_inj' actions rfl
    have merged : .deriveRewards day range ∈ batches.map Write.merge := by simp [same]
    obtain ⟨batch, -, wrong⟩ := List.mem_map.mp merged
    cases wrong

/-- The rows of the jobs are those of all validators before `stop`. -/
theorem rows_of_split (rewarded : rewardsOf incomes = .ok rewards)
    (distinct : (incomes.map ProposerIncome.index).Nodup) {stop : Nat} {size : Int}
    (inRange : stop ≤ Bounds.int32.greatest) (narrow : size ≤ Bounds.int32.greatest)
    (planned : (IndexRange.split stop size).mapM (job day rewards) = .ok jobs) :
    (jobs.flatMap Job.actions).flatMap Write.rows =
      (List.range stop).map fun k : Nat => row day k ⟨earnedBy incomes k⟩ := by
  rw [jobs_rows planned]
  simp only [rows_eq rewarded distinct]
  rw [← List.map_flatMap, IndexRange.indices_split (Int.natCast_nonneg stop) inRange narrow,
    List.map_map]
  rfl

theorem rows_landed_before (rewarded : rewardsOf incomes = .ok rewards)
    (distinct : (incomes.map ProposerIncome.index).Nodup)
    (planned : ranges.mapM (job day rewards) = .ok jobs) {g : Group} {before after : List Event}
    {range : IndexRange} {answer : Unit} {results : Outcome (List Unit)}
    (works : Runs (g.run .writes jobs)
      (before ++ ⟨.startWrite (.deriveRewards day range), answer⟩ :: after) results)
    {i : ValidatorIndex} (member : i ∈ range) :
    ∃ batch, .merge batch ∈ before.flatMap Event.landsWrite ∧
      row day i ⟨earnedBy incomes i⟩ ∈ batch.rows := by
  obtain ⟨made, given, done, rest, actions, all⟩ := g.run_in_turn works
  obtain ⟨batches, cut, rfl⟩ := rows_before_derived planned given actions
  have written : row day i ⟨earnedBy incomes i⟩ ∈ batches.flatMap Batch.rows := by
    rw [Batch.rows_of_plan cut, rows_eq rewarded distinct]
    exact List.mem_map_of_mem (IndexRange.mem_indices.mpr member)
  obtain ⟨batch, own, inside⟩ := List.mem_flatMap.mp written
  exact ⟨batch, all _ (List.mem_map_of_mem own), inside⟩

end Jobs

/-- Whatever the world does and in whichever order it answers, no income is lost. -/
theorem stage_conserves {settings : Settings} {day : Day} {incomes : List ProposerIncome}
    {known : Int} {trace : List Event} (run : Runs (stage settings day) trace (.ok ()))
    (told : ⟨.indexer (.proposerIncome day.epochs), .ok incomes⟩ ∈ trace)
    (counted : ⟨.query .validatorCount, .ok known⟩ ∈ trace)
    (distinct : (incomes.map ProposerIncome.index).Nodup)
    (nonneg : ∀ income ∈ incomes, 0 ≤ income.index)
    (nonnegative : 0 ≤ known) (inRange : known ≤ Bounds.int32.greatest)
    (narrow : settings.upsertBatch ≤ Bounds.int32.greatest) :
    ∃ stop : Nat, Reaches known incomes stop ∧ Conserved day incomes stop trace := by
  obtain ⟨early, given, rewards, proposers, count, jobs, worked, results, rfl, prepares, tells,
    rewarded, highest, planned, works⟩ := stage_ok run
  obtain rfl := (tells incomes).mp told
  obtain ⟨rfl, serves⟩ := served_of_stage prepares works (by simp) counted
  have reaches := reaches_max rewarded highest nonnegative
  have least : 0 ≤ max known proposers := Int.le_trans nonnegative reaches.counted
  have greatest : max known proposers ≤ Bounds.int32.greatest :=
    max_le inRange (proposerCount_mem highest).2
  obtain ⟨stop, same⟩ := Int.eq_ofNat_of_zero_le least
  rw [same] at reaches greatest planned
  have marks : ∀ e ∈ [(⟨.write (.markExported day .consensusRewards), .ok ()⟩ : Event)],
      ∃ w, e.1 = .write w := by simp
  obtain ⟨started, landed⟩ := writes_of_stage known worked prepares marks
  obtain ⟨issued, answered⟩ := landed_of_group works
  have written := answered.flatMap_right Write.rows
  rw [rows_of_split rewarded distinct greatest narrow planned] at written
  refine ⟨stop, reaches, ?answered, ?statements, ?rows, ?total, fun i => ?derived, ?behind⟩
  case answered =>
    rw [started, landed]
    exact issued.trans answered.symm
  case statements =>
    rw [landed]
    exact fun w member => jobs_statements planned w (answered.mem_iff.mp member)
  case rows =>
    rw [landed]
    exact written
  case total =>
    rw [landed, (written.map rewardsIn).sum_eq, List.map_map]
    exact sum_earnedBy distinct fun income member =>
      ⟨nonneg income member, reaches.proposed income member⟩
  case derived =>
    have once := serves .income day i
    have inside : (stop : Int) ∈ Bounds.int32 := ⟨by simp only [Bounds.int32]; omega, greatest⟩
    have whole : IndexRange.reach stop settings.upsertBatch = stop := by
      rw [IndexRange.reach_eq_iff.mpr (.inr (.inl narrow))]
      exact Int.max_eq_left (Int.natCast_nonneg stop)
    rwa [jobs_serve planned, IndexRange.count_split inside, whole] at once
  case behind =>
    intro before range answer after split i member
    have notEarly : ⟨.startWrite (.deriveRewards day range), answer⟩ ∉
        early ++ [(⟨.query .validatorCount, .ok known⟩ : Event)] := by
      intro before
      rcases List.mem_append.mp before with before | now
      · exact prepares _ before
      · cases List.mem_singleton.mp now
    rw [List.append_cons] at split
    -- The gates and the mark start nothing, so the statement comes from the group.
    obtain ⟨ahead, rest, rfl, rfl⟩ := split_between split notEarly (by simp)
    obtain ⟨batch, landed, inside⟩ := rows_landed_before rewarded distinct planned works member
    refine ⟨batch, ?_, inside⟩
    rw [List.flatMap_append]
    exact List.mem_append_right _ landed

/-- Everything is exported, and there are two validators. Another one has proposed as well. -/
def proposing : (r : Request) → r.Answer
  | .indexer (.proposerIncome _) => .ok [⟨4, ⟨7⟩, ⟨0⟩, ⟨2⟩⟩, ⟨1, ⟨10⟩, ⟨1⟩, ⟨0⟩⟩]
  | r => Books.calmAnswer 2 (fun _ => some ⟨true, fun _ => true⟩) r

/-- A row each for five validators, in three ranges. -/
theorem stage_conserves_five : ∃ trace, Runs (stage (batchesOf 2) ⟨1⟩) trace (.ok ()) ∧
    Conserved ⟨1⟩ [⟨4, ⟨7⟩, ⟨0⟩, ⟨2⟩⟩, ⟨1, ⟨10⟩, ⟨1⟩, ⟨0⟩⟩] 5 trace := by
  have run := runs_observe (steady proposing) (stage (batchesOf 2) ⟨1⟩) ()
  have well : ((stage (batchesOf 2) ⟨1⟩).observe (steady proposing) ()).2 = .ok () := by cbv
  have told : ((stage (batchesOf 2) ⟨1⟩).observe (steady proposing) ()).1[5]? =
      some ⟨.indexer (.proposerIncome (Day.epochs ⟨1⟩)),
        .ok [⟨4, ⟨7⟩, ⟨0⟩, ⟨2⟩⟩, ⟨1, ⟨10⟩, ⟨1⟩, ⟨0⟩⟩]⟩ := by cbv
  have counted : ((stage (batchesOf 2) ⟨1⟩).observe (steady proposing) ()).1[6]? =
      some ⟨.query .validatorCount, .ok (2 : Int)⟩ := by cbv
  rw [well] at run
  obtain ⟨stop, reaches, conserved⟩ := stage_conserves run (List.mem_of_getElem? told)
    (List.mem_of_getElem? counted) (by decide) (by decide) (by decide) (by decide) (by decide)
  have five : stop = 5 := by
    have last : (4 : Int) < stop := reaches.proposed _ List.mem_cons_self
    rcases reaches.attained with two | ⟨income, member, next⟩
    · omega
    · rcases List.mem_pair.mp member with rfl | rfl
      · exact Int.ofNat_inj.mp next
      · have two : (stop : Int) = 2 := next
        omega
  exact ⟨_, run, five ▸ conserved⟩

end ConsensusRewards
end ValidatorDays
