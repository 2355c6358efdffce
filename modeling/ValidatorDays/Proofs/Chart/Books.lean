import ValidatorDays.Proofs.Chart.Readings
import ValidatorDays.Proofs.Chart.Window
import ValidatorDays.Proofs.Decimal.Value
import ValidatorDays.Proofs.Status.Books
import ValidatorDays.Proofs.Upsert.Merges
/-! The stored chart points, and what an export does to the total emissions among them. It reads the
total of the latest day before, adds what the day itself brought, and files the sum under the
day; no other total changes. -/
namespace ValidatorDays

open ChartSeries (Asks)
open Program

/-- What is the same whenever a day is exported. -/
structure ChartFacts where
  firstBlock : Slot → Option BlockNumber
  chain : List Block
  descending : Descending chain
  rewards : Day → Gwei

namespace ChartFacts

variable (f : ChartFacts)

def blocks (day : Day) : List Block :=
  match ChartWindow.ofDay day with
  | .error _ => []
  | .ok window =>
    match f.firstBlock window.firstSlot, f.firstBlock window.endSlot with
    | some first, some stop => BlockRange.of ⟨first, stop - 1⟩ f.chain
    | _, _ => []

def emission (day : Day) : ℚ :=
  match BlockTotals.empty.addBlocks (f.blocks day) with
  | .ok totals => (f.rewards day).toWei.count + totals.tips.value - totals.burned.value
  | .error _ => 0

end ChartFacts

abbrev ChartTable := Database (Option SqlValue)

namespace ChartTable

def empty : ChartTable := fun _ => none

def address (time : Instant) (indicator : Indicator) : Address (Option SqlValue) :=
  ⟨"chart_series", {("time", some (.time time)), ("indicator", some (.text indicator.name))}⟩

def total? (t : ChartTable) (time : Instant) : Option Decimal :=
  (t (address time .totalEmission)).bind fun stored =>
    match stored "value" with
    | some (.numeric total) => some total
    | _ => none

/-- The answer is the total of the latest moment before this one, or that there is none. -/
def Latest (t : ChartTable) (before : Instant) : Option Decimal → Prop
  | none => ∀ time < before, t.total? time = none
  | some answer => ∃ time < before, (∃ total, t.total? time = some total ∧
      total.value = answer.value) ∧ ∀ later, time < later → later < before → t.total? later = none

def write (t : ChartTable) : Write → ChartTable
  | .merge batch => Layout.plain.execute t batch
  | _ => t

def writeAll (t : ChartTable) (ws : List Write) : ChartTable := ws.foldl write t

theorem writeAll_merges (t : ChartTable) (batches : List Batch) :
    t.writeAll (batches.map .merge) = Layout.plain.executeAll t batches := by
  rw [writeAll, List.foldl_map]
  rfl

end ChartTable

/-- The points that are stored, and the statements of a transaction that do not show yet. -/
structure ChartBooks where
  table : ChartTable
  pending : Program.Transaction

namespace ChartBooks

def opened (t : ChartTable) : ChartBooks := ⟨t, none⟩

def after (b : ChartBooks) (e : Event) : ChartBooks :=
  ⟨b.table.writeAll (b.pending.shows e), b.pending.after e⟩

def afterAll (b : ChartBooks) (trace : List Event) : ChartBooks := trace.foldl after b

/-- A question that is answered is answered by what is stored, and by the facts. -/
def Answers (f : ChartFacts) (b : ChartBooks) : Event → Prop
  | ⟨.query (.lastEmission before), .ok answer⟩ => b.table.Latest before answer
  | ⟨.query (.firstBlockFrom slot), .ok block⟩ => block = f.firstBlock slot
  | ⟨.query (.rewardsSum day), .ok rewards⟩ => rewards = f.rewards day
  | ⟨.indexer (.blocks range), .ok blocks⟩ => blocks = range.of f.chain
  | _ => True

def Agrees (f : ChartFacts) (b : ChartBooks) : List Event → Prop
  | [] => True
  | e :: rest => b.Answers f e ∧ (b.after e).Agrees f rest

variable {f : ChartFacts} {b : ChartBooks} {first rest : List Event}

theorem afterAll_append : b.afterAll (first ++ rest) = (b.afterAll first).afterAll rest :=
  List.foldl_append

theorem agrees_append :
    b.Agrees f (first ++ rest) ↔ b.Agrees f first ∧ (b.afterAll first).Agrees f rest := by
  induction first generalizing b with
  | nil => simp [Agrees, afterAll]
  | cons e others ih =>
    simp only [List.cons_append, Agrees, ih, and_assoc]
    exact Iff.rfl

theorem after_asks {e : Event} (asks : Asks e.1) : b.after e = b := by
  obtain ⟨table, pending⟩ := b
  obtain ⟨r, answer⟩ := e
  cases r with
  | query | indexer | price | firstGoesOn | feederFirst => cases pending <;> rfl
  | _ => exact asks.elim

theorem afterAll_asks (asks : ∀ e ∈ first, Asks e.1) : b.afterAll first = b := by
  induction first with
  | nil => rfl
  | cons e others ih =>
    obtain ⟨one, more⟩ := List.forall_mem_cons.mp asks
    rw [afterAll, List.foldl_cons, after_asks one]
    exact ih more

theorem Agrees.answers (agrees : b.Agrees f first) (asks : ∀ e ∈ first, Asks e.1) :
    ∀ e ∈ first, b.Answers f e := by
  induction first with
  | nil => exact List.forall_mem_nil _
  | cons e others ih =>
    obtain ⟨one, more⟩ := List.forall_mem_cons.mp asks
    have onward := agrees.2
    rw [after_asks one] at onward
    exact List.forall_mem_cons.mpr ⟨agrees.1, ih onward more⟩

theorem afterAll_committed {t : ChartTable} {ws : List Write} :
    (opened t).afterAll (committed ws) = opened (t.writeAll ws) := by
  have statements : ∀ before : List Write,
      afterAll ⟨t, some before⟩ (ws.map fun w => ⟨.write w, .ok ()⟩) =
        ⟨t, some (before ++ ws)⟩ := by
    induction ws with
    | nil =>
      intro before
      rw [List.append_nil]
      rfl
    | cons w others ih =>
      intro before
      rw [List.append_cons]
      exact ih (before ++ [w])
  rw [committed, List.cons_append, ← List.singleton_append, afterAll_append, afterAll_append]
  show afterAll (afterAll ⟨t, some []⟩ _) _ = _
  rw [statements]
  rfl

/-- What the indexer has told of the chunks of a range are the blocks of the range. -/
theorem told_eq {range : BlockRange} {chunkSize : Int} {told : List (BlockRange × List Block)}
    (cut : range.descending chunkSize = .ok (told.map Prod.fst))
    (answers : ∀ chunk blocks, (chunk, blocks) ∈ told → blocks = chunk.of f.chain) :
    told.flatMap Prod.snd = range.of f.chain := by
  rw [← BlockRange.of_descending f.descending cut, List.flatMap_map]
  exact List.flatMap_congr fun (chunk, blocks) member => answers chunk blocks member

/-- What a successful export has read, and what it has stored. -/
theorem write_ok {settings : Settings} {day : Day} {t : ChartTable} {trace : List Event}
    {points : List ChartPoint} (run : Runs (ChartSeries.write settings day) trace (.ok points))
    (agrees : (opened t).Agrees f trace) :
    ∃ window inputs answer planned, ChartWindow.ofDay day = .ok window ∧
      BlockTotals.empty.addBlocks (f.blocks day) = .ok inputs.totals ∧
      inputs.consensusRewards = f.rewards day ∧ t.Latest window.time answer ∧
      inputs.previousEmission = answer.getD 0 ∧ ChartSeries.points window inputs = .ok points ∧
      Batch.plan ChartPoint.target (points.map ChartPoint.row) settings.upsertBatch = .ok planned ∧
      (opened t).afterAll trace = opened (Layout.plain.executeAll t planned) := by
  obtain ⟨findings, reads, planned, found, rfl, plan, rfl⟩ := ChartSeries.write_ok run
  have answers := (agrees_append.mp agrees).1.answers found.only
  have lowest : some findings.first = f.firstBlock _ := answers _ found.first
  have next : some findings.stop = f.firstBlock _ := answers _ found.stop
  have income : findings.inputs.consensusRewards = f.rewards day := answers _ found.rewards
  obtain ⟨answer, asked, carried⟩ := found.emission
  have latest : t.Latest findings.window.time answer := answers _ asked
  have blocks : findings.told.flatMap Prod.snd = f.blocks day := by
    simp only [ChartFacts.blocks, found.window, ← lowest, ← next]
    apply told_eq found.chunks
    intro chunk blocks member
    have told : (chunk, .ok blocks) ∈ BlockStream.fetches reads := by
      rw [found.fetched]
      exact List.mem_map_of_mem member
    exact answers _ (BlockStream.mem_fetches.mp told)
  refine ⟨findings.window, findings.inputs, answer, planned, found.window, ?_, income, latest,
    carried, found.points, plan, ?_⟩
  · rw [← blocks]
    exact found.counted
  · rw [afterAll_append, afterAll_asks found.only, afterAll_append, afterAll_committed,
      ChartTable.writeAll_merges]
    rfl

/-- The answers of a world in which nothing fails and all else is as the facts have it. -/
def calmAnswer (f : ChartFacts) (emission : Instant → Option Decimal) : (r : Request) → r.Answer
  | .query (.firstBlockFrom slot) => .ok (f.firstBlock slot)
  | .query (.rewardsSum day) => .ok (f.rewards day)
  | .query (.lastEmission before) => .ok (emission before)
  | .indexer (.blocks range) => .ok (range.of f.chain)
  | r => Books.calmAnswer 0 .empty r

theorem calm_answers {t : ChartTable} {emission : Instant → Option Decimal}
    (latest : ∀ before, t.Latest before (emission before)) (r : Request) :
    (opened t).Answers f ⟨r, calmAnswer f emission r⟩ := by
  cases r with
  | query q =>
    cases q with
    | lastEmission before => exact latest before
    | firstBlockFrom slot => exact rfl
    | rewardsSum day => exact rfl
    | _ => trivial
  | indexer q =>
    cases q with
    | blocks range => exact rfl
    | _ => trivial
  | _ => trivial

/-- What is asked and answered when a day is exported in a calm world, and what it comes to. -/
def calmExport (f : ChartFacts) (emission : Instant → Option Decimal) (settings : Settings)
    (day : Day) : List Event × Outcome (List ChartPoint) :=
  (ChartSeries.write settings day).observe (steady (calmAnswer f emission)) ()

theorem runs_calmExport {emission : Instant → Option Decimal} {settings : Settings} {day : Day}
    (done : (calmExport f emission settings day).2.toBool = true) :
    ∃ points, Runs (ChartSeries.write settings day) (calmExport f emission settings day).1
      (.ok points) := by
  have run := runs_observe (steady (calmAnswer f emission)) (ChartSeries.write settings day) ()
  cases ended : (calmExport f emission settings day).2 with
  | error cause =>
    rw [ended] at done
    cases done
  | ok points => exact ⟨points, ended ▸ run⟩

theorem answers_of_not_asks {e : Event} (other : ¬ Asks e.1) : b.Answers f e := by
  unfold Answers
  split
  · exact (other trivial).elim
  · exact (other trivial).elim
  · exact (other trivial).elim
  · exact (other trivial).elim
  · trivial

theorem agrees_of_not_asks (others : ∀ e ∈ rest, ¬ Asks e.1) : b.Agrees f rest := by
  induction rest generalizing b with
  | nil => trivial
  | cons e rest ih =>
    obtain ⟨one, more⟩ := List.forall_mem_cons.mp others
    exact ⟨answers_of_not_asks one, ih more⟩

theorem agrees_of_asks_first {trace : List Event} (answers : ∀ e ∈ trace, b.Answers f e)
    (order : (trace.dropWhile fun e => Asks e.1).all (fun e => ¬ Asks e.1) = true) :
    b.Agrees f trace := by
  induction trace with
  | nil => trivial
  | cons e rest ih =>
    obtain ⟨first, others⟩ := List.forall_mem_cons.mp answers
    by_cases asks : Asks e.1
    · rw [List.dropWhile_cons_of_pos (by simpa using asks)] at order
      refine ⟨first, ?_⟩
      rw [after_asks asks]
      exact ih others order
    · rw [List.dropWhile_cons_of_neg (by simpa using asks)] at order
      apply agrees_of_not_asks
      exact fun e member => of_decide_eq_true (List.all_eq_true.mp order e member)

end ChartBooks
end ValidatorDays
