import Mathlib
import ValidatorDays.Proofs.Chart.Readings
import ValidatorDays.Proofs.Status.Ways
import ValidatorDays.Proofs.Upsert.Written
import ValidatorDays.Proofs.Work.Script
import ValidatorDays.Stage.ExecutionRewards
import ValidatorDays.Stage.Indexed
import ValidatorDays.Stage.Transfers
/-! The works that write their rows together. Each of them reads first, plans its batches from what
it has read, and then writes all of them and marks what it has written, or nothing. -/
namespace ValidatorDays

open Program

theorem Request.Reads.of_asks {r : Request} (asks : ChartSeries.Asks r) : r.Reads := by
  cases r with
  | query | indexer | price | firstGoesOn | feederFirst => trivial
  | _ => exact asks.elim

namespace Program

variable {α : Type} {plans : List Event → List Statement → Prop}

/-- The work only reads until it has a plan, and then it plays the plan. It may break off before. -/
def ReadsThen (plans : List Event → List Statement → Prop) (p : Program Unit) : Prop :=
  ∀ trace result, Runs p trace result →
    ((∀ e ∈ trace, e.1.Reads) ∧ ∃ cause, result = .error cause) ∨
    ∃ early late script ended, trace = early ++ late ∧ (∀ e ∈ early, e.1.Reads) ∧
      plans early script ∧ Played script late ended ∧ result = ended.mapError .notPersisted

namespace ReadsThen

theorem bind {p : Program α} {f : α → Program Unit} (only : p.Only Request.Reads)
    (next : ∀ early a, Runs p early (.ok a) →
      (f a).ReadsThen fun more script => plans (early ++ more) script) :
    (p.bind f).ReadsThen plans := by
  intro trace result run
  obtain ⟨begun, a, rest, rfl, own, onward⟩ | ⟨cause, own, rfl⟩ := runs_bind.mp run
  · have reads := only.asked own
    obtain ⟨more, failed⟩ | ⟨early, late, script, ended, rfl, more, planned, played, told⟩ :=
      next begun a own _ _ onward
    · exact .inl ⟨List.forall_mem_append.mpr ⟨reads, more⟩, failed⟩
    · exact .inr ⟨begun ++ early, late, script, ended, (List.append_assoc ..).symm,
        List.forall_mem_append.mpr ⟨reads, more⟩, planned, played, told⟩
  · exact .inl ⟨only.asked own, cause, rfl⟩

theorem of_scripted {p : Program Unit} {script : List Statement}
    (scripted : p.Scripted .notPersisted script) (planned : plans [] script) :
    p.ReadsThen plans := by
  intro trace result run
  obtain ⟨ended, played, told⟩ := scripted trace result run
  refine .inr ⟨[], trace, script, ended, rfl, List.forall_mem_nil _, planned, played, ?_⟩
  cases result <;> exact told

theorem outcome {o : Outcome α} {f : α → Program Unit}
    (next : ∀ a, o = .ok a → (f a).ReadsThen plans) : ((ofOutcome o).bind f).ReadsThen plans := by
  refine bind (.outcome o) fun early a run => ?_
  obtain ⟨rfl, same⟩ := runs_outcome.mp run
  exact next a same.symm

theorem checked {c : Checked α} {f : α → Program Unit}
    (next : ∀ a, c = .ok a → (f a).ReadsThen plans) :
    ((ofOutcome (.ofChecked c)).bind f).ReadsThen plans := by
  refine outcome fun a same => ?_
  cases c with
  | ok b =>
    cases same
    exact next _ rfl
  | error fault => cases same

theorem staged {c : Except StageError α} {f : α → Program Unit}
    (next : ∀ a, c = .ok a → (f a).ReadsThen plans) :
    ((ofOutcome (.ofStage c)).bind f).ReadsThen plans := by
  refine outcome fun a same => ?_
  cases c with
  | ok b =>
    cases same
    exact next _ rfl
  | error e => cases same

theorem read {q : Query} {f : q.Rows → Program Unit} (next : ∀ rows, (f rows).ReadsThen
    fun more script => plans (⟨.query q, .ok rows⟩ :: more) script) :
    ((readStage q).bind f).ReadsThen plans := by
  refine bind (.read trivial) fun early rows run => ?_
  cases run.mapFailure_ok.query_ok
  exact next rows

theorem ask {q : IndexerQuery} {f : q.Rows → Program Unit} (next : ∀ rows, (f rows).ReadsThen
    fun more script => plans (⟨.indexer q, .ok rows⟩ :: more) script) :
    ((askIndexer q).bind f).ReadsThen plans := by
  refine bind (.mapFailure (.ask trivial .ofReport)) fun early rows run => ?_
  cases run.mapFailure_ok.indexer_ok
  exact next rows

theorem askRelays {hashes : List BlockHash} {f : List (BlockHash × Wei) → Program Unit}
    (next : ∀ bids, (f bids).ReadsThen
      fun more script => plans (⟨.relays hashes, .ok bids⟩ :: more) script) :
    (((relays hashes).mapFailure .asAggregation).bind f).ReadsThen plans := by
  refine bind (.mapFailure (.ask trivial .ofReport)) fun early bids run => ?_
  cases run.mapFailure_ok with
  | ask answer rest =>
    cases answer with
    | error cause => cases rest
    | ok bids =>
      cases rest
      exact next bids

theorem marked {t : Target} {rows : List Row} {size : Nat} {mark : Write}
    (bound : mark.bound = .ok ()) (planned : ∀ batches, Batch.plan t rows size = .ok batches →
      plans [] (Statement.together batches ++ [.write mark])) :
    ((mergeRowsTogether t rows size).bind fun _ => writeStage mark).ReadsThen plans := by
  cases plan : Batch.plan t rows size with
  | error e =>
    unfold mergeRowsTogether
    rw [plan]
    intro trace result run
    cases run
    exact .inl ⟨List.forall_mem_nil _, _, rfl⟩
  | ok batches =>
    have script := (Scripted.mergeRowsTogether plan).bind fun _ => Scripted.writeStage bound
    exact of_scripted script (planned batches plan)

end ReadsThen
end Program

inductive Bundle where
  | syncDuties
  | executionRewards
  | transfers
  | chartPoints

namespace Bundle

def work (settings : Settings) (day : Day) : Bundle → Program Unit
  | .syncDuties => SyncDuties.stage settings day
  | .executionRewards => ExecutionRewards.stage settings day
  | .transfers => Transfers.stage settings day
  | .chartPoints => (ChartSeries.write settings day).bind fun _ => .done ()

def mark (day : Day) : Bundle → Write
  | .syncDuties => .markExported day .syncDuties
  | .executionRewards => .markExported day .executionRewards
  | .transfers => .markExported day .withdrawalsDeposits
  | .chartPoints => .markChartDay day

/-- The rows come from what has been read, and the batches are those that are planned for them. -/
inductive Plans (settings : Settings) (day : Day) (early : List Event) :
    Bundle → List Row → List Batch → Prop where
  | syncDuties {duties : List SyncDuties} {batches : List Batch}
      (told : ⟨.indexer (.syncDuties day.epochs), .ok duties⟩ ∈ early)
      (plan : Batch.plan SyncDuties.target (duties.map (SyncDuties.row day))
        settings.syncDutiesBatch = .ok batches) :
      Plans settings day early .syncDuties (duties.map (SyncDuties.row day)) batches
  | executionRewards {canonical : List CanonicalBlock} {blocks : List BlockReward}
      {bribes : List (BlockHash × Wei)} {rewards : Tally ExecutionRewards} {batches : List Batch}
      (read : ⟨.query (.canonicalBlocks day.epochs), .ok canonical⟩ ∈ early)
      (told : ⟨.indexer (.blockRewards (canonical.map (·.number))), .ok blocks⟩ ∈ early)
      (bid : ⟨.relays (blocks.map (·.hash)), .ok bribes⟩ ∈ early)
      (earned : ExecutionRewards.byProposer canonical blocks bribes = .ok rewards)
      (plan : Batch.plan ExecutionRewards.target (ExecutionRewards.rows day rewards)
        settings.upsertBatch = .ok batches) :
      Plans settings day early .executionRewards (ExecutionRewards.rows day rewards) batches
  | transfers {range : EpochRange} {first stop : Slot} {deposits : List Deposits}
      {withdrawals : List Withdrawals} {depositBatches withdrawalBatches : List Batch}
      (shifted : day.epochs.shiftedBack = .ok range) (slots : range.slots = .ok (first, stop))
      (read : ⟨.query (.deposits range day), .ok deposits⟩ ∈ early)
      (readToo : ⟨.query (.withdrawals first stop), .ok withdrawals⟩ ∈ early)
      (plan : Batch.plan Deposits.target (deposits.map Deposits.row) settings.upsertBatch =
        .ok depositBatches)
      (planToo : Batch.plan Withdrawals.target (withdrawals.map (Withdrawals.row day))
        settings.upsertBatch = .ok withdrawalBatches) :
      Plans settings day early .transfers
        (deposits.map Deposits.row ++ withdrawals.map (Withdrawals.row day))
        (depositBatches ++ withdrawalBatches)
  | chartPoints {f : ChartSeries.Findings} {batches : List Batch} (found : f.In settings day early)
      (plan : Batch.plan ChartPoint.target (f.points.map ChartPoint.row) settings.upsertBatch =
        .ok batches) :
      Plans settings day early .chartPoints (f.points.map ChartPoint.row) batches

theorem Plans.rows_eq {settings : Settings} {day : Day} {early : List Event} {b : Bundle}
    {rows : List Row} {batches : List Batch} (planned : Plans settings day early b rows batches) :
    batches.flatMap Batch.rows = rows := by
  cases planned with
  | syncDuties _ plan => exact Batch.rows_of_plan plan
  | executionRewards _ _ _ _ plan => exact Batch.rows_of_plan plan
  | transfers _ _ _ _ plan planToo =>
    rw [List.flatMap_append, Batch.rows_of_plan plan, Batch.rows_of_plan planToo]
  | chartPoints _ plan => exact Batch.rows_of_plan plan

theorem Plans.eq_nil {settings : Settings} {day : Day} {early : List Event} {b : Bundle}
    {rows : List Row} {batches : List Batch} (planned : Plans settings day early b rows batches)
    (empty : rows = []) : batches = [] := by
  have noBatches {t : Target} {rows : List Row} {size : Nat} {batches : List Batch}
      (empty : rows = [])
      (plan : Batch.plan t rows size = .ok batches) : batches = [] := by
    rw [empty, Batch.plan_nil] at plan
    exact (Except.ok.inj plan).symm
  cases planned with
  | syncDuties _ plan => exact noBatches empty plan
  | executionRewards _ _ _ _ plan => exact noBatches empty plan
  | transfers _ _ _ _ plan planToo =>
    obtain ⟨first, second⟩ := List.append_eq_nil_iff.mp empty
    rw [noBatches first plan, noBatches second planToo]
    rfl
  | chartPoints _ plan => exact noBatches empty plan

def Scripts (settings : Settings) (day : Day) (b : Bundle) (early : List Event)
    (script : List Statement) : Prop :=
  ∃ rows batches, Plans settings day early b rows batches ∧
    script = Statement.together batches ++ [.write (b.mark day)]

theorem gate_reads (day : Day) (range : EpochRange) :
    (ensureEpochsFinalized day range).Only Request.Reads :=
  .bind (.read trivial) fun _ => .outcome _

section Work

variable (settings : Settings) (day : Day)

theorem syncDuties_reads :
    (SyncDuties.stage settings day).ReadsThen (syncDuties.Scripts settings day) :=
  .bind (gate_reads day _) fun gate _ _ => .ask fun duties => .marked rfl fun batches plan =>
    ⟨_, batches, .syncDuties (by simp) plan, rfl⟩

theorem executionRewards_reads :
    (ExecutionRewards.stage settings day).ReadsThen (executionRewards.Scripts settings day) :=
  .bind (gate_reads day _) fun gate _ _ => .read fun canonical => .ask fun blocks =>
    .askRelays fun bribes => .outcome fun rewards earned => .marked rfl fun batches plan =>
      ⟨_, batches, .executionRewards (by simp) (by simp) (by simp) earned plan, rfl⟩

theorem transfers_reads :
    (Transfers.stage settings day).ReadsThen (transfers.Scripts settings day) := by
  refine .bind (gate_reads day _) fun gate _ _ => .checked fun range shifted =>
    .checked fun (first, stop) slots => ?_
  have reads : ((readStage (.deposits range day)).both (readStage (.withdrawals first stop))).Only
      Request.Reads := Only.both (.read trivial) (.read trivial) trivial
  refine .bind reads fun early (deposits, withdrawals) read =>
    .staged fun depositBatches plan => .staged fun withdrawalBatches planToo => ?_
  have woven := read.reads_ok
  have told := woven.first_sublist.subset (List.mem_singleton_self _)
  have toldToo := woven.second_sublist.subset (List.mem_singleton_self _)
  have planned : transfers.Scripts settings day (gate ++ (early ++ []))
      (Statement.together (depositBatches ++ withdrawalBatches) ++
        [.write (transfers.mark day)]) :=
    ⟨_, _, .transfers shifted slots (by simp [told]) (by simp [toldToo]) plan planToo, rfl⟩
  generalize depositBatches ++ withdrawalBatches = batches at planned ⊢
  cases batches with
  | nil => exact .of_scripted ((Scripted.done ()).bind fun _ => .writeStage rfl) planned
  | cons b others =>
    exact .of_scripted ((Scripted.merges (b :: others)).bind fun _ => .writeStage rfl) planned

theorem chartPoints_reads :
    (chartPoints.work settings day).ReadsThen (chartPoints.Scripts settings day) := by
  have stored (points : List ChartPoint) :
      ((ChartSeries.storing settings day points).bind fun _ => .done ()) =
        (mergeRowsTogether ChartPoint.target (points.map ChartPoint.row)
          settings.upsertBatch).bind fun _ => writeStage (.markChartDay day) := by
    unfold ChartSeries.storing
    simp only [Bind.bind, bind_assoc]
    exact congrArg _ (funext fun _ => bind_done _)
  rw [work, ChartSeries.write_eq, bind_assoc]
  refine .bind ((ChartSeries.reading_asks settings day).mono fun _ => .of_asks)
    fun early points read => ?_
  obtain ⟨f, found, rfl⟩ := ChartSeries.reading_ok read
  rw [stored]
  refine .marked rfl fun batches plan => ?_
  rw [List.append_nil]
  exact ⟨_, batches, .chartPoints found plan, rfl⟩

theorem work_reads (b : Bundle) : (b.work settings day).ReadsThen (b.Scripts settings day) := by
  cases b with
  | syncDuties => exact syncDuties_reads settings day
  | executionRewards => exact executionRewards_reads settings day
  | transfers => exact transfers_reads settings day
  | chartPoints => exact chartPoints_reads settings day

theorem mark_ne_merge (b : Bundle) (batch : Batch) : b.mark day ≠ .merge batch := by
  cases b <;> exact nofun

end Work

end Bundle

theorem Program.Event.not_begins_of_reads {e : Event} (reads : e.1.Reads) : e.begins = false := by
  obtain ⟨r, answer⟩ := e
  cases r with
  | begin => exact reads.elim
  | _ => rfl

theorem Program.Transaction.shown_reads {early : List Event} (reads : ∀ e ∈ early, e.1.Reads)
    (tx : Program.Transaction) (late : List Event) : tx.shown (early ++ late) = tx.shown late := by
  induction early with
  | nil => rfl
  | cons e others ih =>
    obtain ⟨first, rest⟩ := List.forall_mem_cons.mp reads
    obtain ⟨same, shows⟩ := tx.after_reads first
    rw [List.cons_append, shown, same, shows]
    exact ih rest

def Statement.rows : Statement → List Row
  | .write w => w.rows
  | _ => []

theorem Statement.rows_answered (s : Statement) (answer : Except DatabaseError Unit) :
    (s.answered answer).rows = s.rows := by
  cases s <;> rfl

theorem Statement.rows_together (batches : List Batch) :
    (together batches).flatMap rows = batches.flatMap Batch.rows := by
  cases batches with
  | nil => rfl
  | cons b others =>
    rw [together_eq (List.cons_ne_nil b others), List.flatMap_cons, List.flatMap_append,
      List.flatMap_map]
    exact List.append_nil _

theorem Played.rows {script : List Statement} {trace : List Event}
    {ended : Except DatabaseError Unit} (played : Played script trace ended) :
    trace.flatMap Event.rows <+: script.flatMap Statement.rows := by
  have answered (statements : List Statement) (answer : Except DatabaseError Unit) :
      (statements.map (·.answered answer)).flatMap Event.rows =
        statements.flatMap Statement.rows := by
    rw [List.flatMap_map]
    exact List.flatMap_congr fun s _ => s.rows_answered answer
  cases played with
  | whole => rw [answered]
  | broken before s after e =>
    rw [List.flatMap_append, answered, List.flatMap_singleton, s.rows_answered,
      List.flatMap_append, List.flatMap_cons, ← List.append_assoc]
    exact List.prefix_append _ _

/-- What a work writes are rows that it has planned. -/
theorem Bundle.rows_written (b : Bundle) {settings : Settings} {day : Day} {trace : List Event}
    {result : Outcome Unit} (run : Runs (b.work settings day) trace result) :
    trace.flatMap Event.rows = [] ∨ ∃ early late rows batches, trace = early ++ late ∧
      b.Plans settings day early rows batches ∧ trace.flatMap Event.rows <+: rows := by
  have readOnly {early : List Event} (reads : ∀ e ∈ early, e.1.Reads) :
      early.flatMap Event.rows = [] := by
    refine List.flatMap_eq_nil_iff.mpr fun e member => ?_
    obtain ⟨r, answer⟩ := e
    cases r with
    | query | indexer | relays | price | firstGoesOn | feederFirst => rfl
    | _ => exact (reads _ member).elim
  obtain ⟨reads, failed⟩ | ⟨early, late, script, ended, rfl, reads, ⟨rows, batches, planned, rfl⟩,
    played, told⟩ := b.work_reads settings day trace result run
  · exact .inl (readOnly reads)
  · refine .inr ⟨early, late, rows, batches, rfl, planned, ?_⟩
    have mark : Statement.rows (.write (b.mark day)) = [] := by cases b <;> rfl
    have written := played.rows
    rw [List.flatMap_append, Statement.rows_together, List.flatMap_singleton, mark,
      List.append_nil, planned.rows_eq] at written
    rwa [List.flatMap_append, readOnly reads]

/-- Five validators have duties, and the statement that begins with the third is refused. -/
def secondPairRefused : (r : Request) → r.Answer
  | .indexer (.syncDuties _) => .ok ((List.range 5).map fun i => ⟨i, 8, 0, 0⟩)
  | .write (.merge ⟨_, (.int4 2 :: _) :: _⟩) => .error .noConnection
  | r => Books.calmAnswer 5 (fun _ => none) r

def inPairs : Settings := { Settings.standard with syncDutiesBatch := 2 }

def pairedDuties : Program Unit := Bundle.syncDuties.work inPairs ⟨1⟩

end ValidatorDays
