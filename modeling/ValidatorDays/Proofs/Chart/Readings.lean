import ValidatorDays.Chart.Series
import ValidatorDays.Proofs.Chart.Indicators
import ValidatorDays.Proofs.Chart.Streaming
import ValidatorDays.Proofs.Upsert.Batches
import ValidatorDays.Proofs.Work.Turns
/-! What an export of the chart series reads. All that it reads comes before all that it writes, so
the export is taken apart there: the reads come to the points of the day, and the points are
stored. -/
namespace ValidatorDays

namespace ChartSeries

open Program

/-- A question that changes nothing, whatever the answer. -/
def Asks : Request → Prop
  | .query _ | .indexer _ | .price _ | .firstGoesOn | .feederFirst => True
  | _ => False

instance (r : Request) : Decidable (Asks r) := by
  unfold Asks
  split <;> infer_instance

theorem Asks.of_stream {r : Request} (asks : BlockStream.Asks r) : Asks r := by
  unfold BlockStream.Asks at asks
  split at asks
  · trivial
  · trivial
  · exact asks.elim

def rangeFrom (settings : Settings) (window : ChartWindow) (first : BlockNumber) :
    Program BlockRange := do
  if first ≤ settings.activationBlock then
    .fail (.stage (.beforeActivation window.day first settings.activationBlock))
  else
    let stop ← firstBlockFrom window.day window.endSlot
    if stop ≤ first then .fail (.stage (noBlocks window.day first stop))
    else BlockRange.make first (← Bounds.int64.check (stop - 1))

theorem blocksOf_eq (settings : Settings) (window : ChartWindow) : blocksOf settings window =
    (firstBlockFrom window.day window.firstSlot).bind (rangeFrom settings window) := rfl

def gathering (settings : Settings) (day : Day) (window : ChartWindow) (blocks : BlockRange) :
    Program (List ChartPoint) := do
  let totals ← BlockStream.totals blocks settings.chartBlocks
  let _ ← (statusOf day).mapFailure .asStage
  let (price, rewards, emission) ← numbers day window.time
  points window ⟨totals, rewards, emission, price, settings.genesisSupplyEth⟩

def reading (settings : Settings) (day : Day) : Program (List ChartPoint) := do
  let window ← ChartWindow.ofDay day
  ensureEpochsFinalized day window.epochs
  let blocks ← blocksOf settings window
  gathering settings day window blocks

def storing (settings : Settings) (day : Day) (points : List ChartPoint) :
    Program (List ChartPoint) := do
  let _ ← mergeRowsTogether ChartPoint.target (points.map ChartPoint.row) settings.upsertBatch
  writeStage (.markChartDay day)
  return points

theorem write_eq (settings : Settings) (day : Day) :
    write settings day = (reading settings day).bind (storing settings day) := by
  unfold write reading gathering storing
  simp only [Bind.bind, bind_assoc]

section Only

variable {asks : Request → Prop}

theorem firstBlockFrom_only {day : Day} {slot : Slot}
    (lookUp : asks (.query (.firstBlockFrom slot))) : (firstBlockFrom day slot).Only asks := by
  apply Only.bind (.read lookUp)
  intro found
  cases found with
  | some block => exact .done block
  | none => exact .fail _

theorem rangeFrom_only {settings : Settings} {window : ChartWindow} {first : BlockNumber}
    (lookUp : asks (.query (.firstBlockFrom window.endSlot))) :
    (rangeFrom settings window first).Only asks := by
  unfold rangeFrom
  split
  · exact .fail _
  · apply Only.bind (firstBlockFrom_only lookUp)
    intro stop
    split
    · exact .fail _
    · exact .bind (.outcome _) fun _ => .outcome _

theorem numbers_only {day : Day} {time : Instant} (price : asks (.price "USD"))
    (rewards : asks (.query (.rewardsSum day))) (emission : asks (.query (.lastEmission time)))
    (turns : asks .firstGoesOn) : (numbers day time).Only asks := by
  apply Only.both (.mapFailure (.ask price .ofReport)) _ turns
  apply Only.both (.read rewards) _ turns
  exact .mapFailure (.bind (.ask emission .ofDatabase) fun _ => .done _)

theorem gathering_only {settings : Settings} {day : Day} {window : ChartWindow}
    {blocks : BlockRange}
    (others : ∀ r, Asks r → (∀ slot, r ≠ .query (.firstBlockFrom slot)) → asks r) :
    (gathering settings day window blocks).Only asks := by
  have stream : (BlockStream.totals blocks settings.chartBlocks).Only asks := by
    apply (BlockStream.totals_asks _ _).mono
    intro r asked
    apply others r (.of_stream asked)
    rintro slot rfl
    exact asked
  apply stream.bind
  intro totals
  have status : (statusOf day).Only asks :=
    .bind (.ask (others _ trivial nofun) .ofDatabase) fun _ => .done _
  apply status.mapFailure.bind
  intro _
  have joined : (numbers day window.time).Only asks :=
    numbers_only (others _ trivial nofun) (others _ trivial nofun) (others _ trivial nofun)
      (others _ trivial nofun)
  exact joined.bind fun _ => .outcome _

theorem reading_asks (settings : Settings) (day : Day) : (reading settings day).Only Asks := by
  apply Only.bind (.outcome _)
  intro window
  apply Only.bind (.bind (.read trivial) fun _ => .outcome _)
  intro _
  apply Only.bind (.bind (firstBlockFrom_only trivial) fun _ => rangeFrom_only trivial)
  intro blocks
  exact gathering_only fun _ asked _ => asked

theorem mergeRowsTogether_only {target : Target} {rows : List Row} {batchSize : Nat}
    (begins : asks .begin) (merges : ∀ batch, asks (.write (.merge batch)))
    (commits : asks .commit) : (mergeRowsTogether target rows batchSize).Only asks := by
  apply Only.bind (.outcome _)
  intro batches
  have statements : ((batches.map Write.merge).forM Program.write).Only asks := by
    induction batches with
    | nil => exact .done ()
    | cons batch others ih =>
      apply Only.bind (.bind (.outcome _) fun _ => .ask (merges batch) .ofDatabase)
      exact fun _ => ih
  split
  · exact .done 0
  · apply Only.bind _ fun _ => .done _
    apply Only.mapFailure
    apply Only.bind (.ask begins .ofDatabase)
    intro _
    exact statements.bind fun _ => .ask commits .ofDatabase

theorem storing_only {settings : Settings} {day : Day} {found : List ChartPoint}
    (others : ∀ r, ¬ Asks r → asks r) : (storing settings day found).Only asks := by
  apply Only.bind (mergeRowsTogether_only (others _ id) (fun _ => others _ id) (others _ id))
  intro _
  apply Only.bind (.mapFailure (.bind (.outcome _) fun _ => .ask (others _ id) .ofDatabase))
  exact fun _ => .done found

end Only

section Reads

variable {settings : Settings} {day : Day} {trace : List Event}

theorem firstBlockFrom_ok {slot : Slot} {block : BlockNumber}
    (run : Runs (firstBlockFrom day slot) trace (.ok block)) :
    trace = [⟨.query (.firstBlockFrom slot), .ok (some block)⟩] := by
  obtain ⟨found, rest, rfl, onward⟩ := run.read_ok
  cases found with
  | none => cases onward
  | some found =>
    cases onward
    rfl

theorem ensureEpochsFinalized_ok {range : EpochRange}
    (run : Runs (ensureEpochsFinalized day range) trace (.ok ())) :
    ∃ finalized, epochsPerDay ≤ finalized ∧
      trace = [⟨.query (.finalizedEpochs range), .ok finalized⟩] := by
  obtain ⟨finalized, rest, rfl, checked⟩ := run.read_ok
  obtain ⟨rfl, enough⟩ := checked.outcome_ok
  refine ⟨finalized, ?_, rfl⟩
  by_contra tooFew
  rw [checkFinalized, if_pos (not_le.mp tooFew)] at enough
  cases enough

theorem blocksOf_ok {window : ChartWindow} {range : BlockRange}
    (run : Runs (blocksOf settings window) trace (.ok range)) :
    ∃ first stop, settings.activationBlock < first ∧ first < stop ∧ range = ⟨first, stop - 1⟩ ∧
      trace = [⟨.query (.firstBlockFrom window.firstSlot), .ok (some first)⟩,
        ⟨.query (.firstBlockFrom window.endSlot), .ok (some stop)⟩] := by
  obtain ⟨reads, first, _, rfl, begins, onward⟩ := run.bind_ok
  obtain rfl := firstBlockFrom_ok begins
  split at onward
  next => cases onward
  next activated =>
    obtain ⟨readsToo, stop, _, rfl, ends, ranged⟩ := onward.bind_ok
    obtain rfl := firstBlockFrom_ok ends
    split at ranged
    next => cases ranged
    next forward =>
      obtain ⟨limit, inside, making⟩ := ranged.checked_ok
      obtain ⟨rfl, made⟩ := making.lifted_ok
      obtain ⟨-, rfl⟩ := Bounds.check_eq_ok_iff.mp inside
      refine ⟨first, stop, not_le.mp activated, not_le.mp forward, ?_, rfl⟩
      unfold BlockRange.make at made
      split at made
      · cases made
      · cases made
        rfl

theorem lastEmission_ok {before : Instant} {emission : Decimal}
    (run : Runs (lastEmission before) trace (.ok emission)) :
    ∃ last : Option Decimal, emission = last.getD 0 ∧
      trace = [⟨.query (.lastEmission before), .ok last⟩] := by
  obtain ⟨reads, last, _, rfl, read, onward⟩ := run.bind_ok
  cases onward
  exact ⟨last, rfl, by rw [read.query_ok, List.append_nil]⟩

theorem numbers_ok {time : Instant} {price : Decimal} {rewards : Gwei} {emission : Decimal}
    (run : Runs (numbers day time) trace (.ok (price, rewards, emission))) :
    ⟨.price "USD", .ok price⟩ ∈ trace ∧ ⟨.query (.rewardsSum day), .ok rewards⟩ ∈ trace ∧
      (∃ last : Option Decimal, ⟨.query (.lastEmission time), .ok last⟩ ∈ trace ∧
        emission = last.getD 0) ∧
      BlockStream.fetches trace = [] := by
  have others : (numbers day time).Only fun r => ∀ range, r ≠ .indexer (.blocks range) :=
    numbers_only nofun nofun nofun nofun
  have silent := BlockStream.fetches_eq_nil (others.asked run)
  obtain ⟨first, rest, pricing, reading, woven⟩ := run.both_ok
  obtain ⟨second, third, earning, carrying, wovenToo⟩ := reading.both_ok
  obtain rfl := pricing.mapFailure_ok.price_ok
  obtain rfl := earning.mapFailure_ok.query_ok
  obtain ⟨last, previous, rfl⟩ := lastEmission_ok carrying.mapFailure_ok
  have within := woven.second_sublist.subset
  have priced := woven.first_sublist.subset (List.mem_singleton_self _)
  have earned := within (wovenToo.first_sublist.subset (List.mem_singleton_self _))
  have carried := within (wovenToo.second_sublist.subset (List.mem_singleton_self _))
  exact ⟨priced, earned, ⟨last, carried, previous⟩, silent⟩

theorem statusOf_ok {status : DayStatus} (run : Runs (statusOf day) trace (.ok status)) :
    ∃ row, trace = [⟨.query (.status day), .ok row⟩] := by
  obtain ⟨reads, row, _, rfl, read, onward⟩ := run.bind_ok
  cases onward
  exact ⟨row, by rw [read.query_ok, List.append_nil]⟩

end Reads

/-- What is found out about a day before anything of it is stored. -/
structure Findings where
  window : ChartWindow
  finalized : Int
  first : BlockNumber
  stop : BlockNumber
  told : List (BlockRange × List Block)
  inputs : ChartInputs
  points : List ChartPoint

/-- All that has been asked was asked for these findings, and was answered well. The epochs of the
window are final, it spans blocks after the activation, each chunk of them was told, the told
blocks count without an error, and no number of the points is missing. -/
structure Findings.In (f : Findings) (settings : Settings) (day : Day) (seen : List Event) :
    Prop where
  window : ChartWindow.ofDay day = .ok f.window
  finalized : ⟨.query (.finalizedEpochs f.window.epochs), .ok f.finalized⟩ ∈ seen
  enough : epochsPerDay ≤ f.finalized
  first : ⟨.query (.firstBlockFrom f.window.firstSlot), .ok (some f.first)⟩ ∈ seen
  activated : settings.activationBlock < f.first
  stop : ⟨.query (.firstBlockFrom f.window.endSlot), .ok (some f.stop)⟩ ∈ seen
  blocks : f.first < f.stop
  chunks : BlockRange.descending ⟨f.first, f.stop - 1⟩ settings.chartBlocks =
    .ok (f.told.map Prod.fst)
  fetched : BlockStream.fetches seen = f.told.map fun (range, blocks) => (range, .ok blocks)
  counted : BlockTotals.empty.addBlocks (f.told.flatMap Prod.snd) = .ok f.inputs.totals
  status : ∃ row, ⟨.query (.status day), .ok row⟩ ∈ seen
  rewards : ⟨.query (.rewardsSum day), .ok f.inputs.consensusRewards⟩ ∈ seen
  emission : ∃ last : Option Decimal, ⟨.query (.lastEmission f.window.time), .ok last⟩ ∈ seen ∧
    f.inputs.previousEmission = last.getD 0
  price : ⟨.price "USD", .ok f.inputs.ethPriceUsd⟩ ∈ seen
  points : ChartSeries.points f.window f.inputs = .ok f.points
  only : ∀ e ∈ seen, Asks e.1

theorem reading_ok {settings : Settings} {day : Day} {trace : List Event} {found : List ChartPoint}
    (run : Runs (reading settings day) trace (.ok found)) :
    ∃ f : Findings, f.In settings day trace ∧ f.points = found := by
  have only := (reading_asks settings day).asked run
  obtain ⟨window, made, gated⟩ := run.checked_ok
  obtain ⟨_, _, _, rfl, gate, located⟩ := gated.bind_ok
  obtain ⟨finalized, enough, rfl⟩ := ensureEpochsFinalized_ok gate
  obtain ⟨_, range, _, rfl, location, streamed⟩ := located.bind_ok
  obtain ⟨first, stop, activated, forward, rfl, rfl⟩ := blocksOf_ok location
  obtain ⟨stream, totals, _, rfl, streaming, noted⟩ := streamed.bind_ok
  obtain ⟨chunks, cut, course⟩ := BlockStream.totals_fetched streaming
  obtain ⟨told, rfl, fetched, counted⟩ := course.of_ok
  obtain ⟨_, status, _, rfl, note, onward⟩ := noted.bind_ok
  obtain ⟨row, rfl⟩ := statusOf_ok note.mapFailure_ok
  obtain ⟨joined, ⟨price, rewards, emission⟩, _, rfl, numbered, pointed⟩ := onward.bind_ok
  obtain ⟨priced, earned, ⟨last, carried, previous⟩, silent⟩ := numbers_ok numbered
  obtain ⟨rfl, values⟩ := pointed.lifted_ok
  refine ⟨⟨window, finalized, first, stop, told,
    ⟨totals, rewards, emission, price, settings.genesisSupplyEth⟩, found⟩, ?_, rfl⟩
  refine ⟨made, ?_, enough, ?_, activated, ?_, forward, cut, ?fetched, counted, ⟨row, ?_⟩, ?_,
    ⟨last, ?_, previous⟩, ?_, values, only⟩
  case fetched =>
    rw [← fetched]
    simp only [BlockStream.fetches_append, silent]
    exact List.append_nil _
  all_goals simp [priced, earned, carried]

theorem Findings.In.points_ne_nil {f : Findings} {settings : Settings} {day : Day}
    {seen : List Event} (found : f.In settings day seen) : f.points ≠ [] := by
  obtain ⟨values, named, made⟩ := bind_eq_ok.mp found.points
  have emission := (ChartInputs.lists_of_ok named).totalEmission
  rw [← Except.ok.inj made]
  exact List.map_eq_nil_iff.not.mpr (List.ne_nil_of_mem emission)

/-- Points are stored in one transaction, and the day is marked after its commit; or storing them
fails, and the day is not marked. -/
theorem storing_runs {settings : Settings} {day : Day} {found : List ChartPoint}
    {trace : List Event} {result : Outcome (List ChartPoint)} (nonempty : found ≠ [])
    (run : Runs (storing settings day found) trace result) :
    (∃ planned answer,
      Batch.plan ChartPoint.target (found.map ChartPoint.row) settings.upsertBatch = .ok planned ∧
      trace = committed (planned.map .merge) ++ [⟨.write (.markChartDay day), answer⟩] ∧
      result = (answer.mapError fun e => (Failure.database e).asStage).map fun _ => found) ∨
    (∃ failure, result = .error failure) ∧
      ∀ e ∈ trace, ∀ marked, e.1 ≠ .write (.markChartDay marked) := by
  obtain ⟨first, count, rest, rfl, merging, marking⟩ | ⟨cause, failed, rfl⟩ := runs_bind.mp run
  · obtain ⟨planned, plan, merged⟩ := merging.staged_ok
    refine .inl ⟨planned, ?_⟩
    cases planned with
    | nil =>
      have rows := Batch.rows_of_plan plan
      exact absurd rows.symm (List.map_eq_nil_iff.not.mpr nonempty)
    | cons batch others =>
      obtain ⟨_, _, _, rfl, written, done⟩ := merged.bind_ok
      cases done
      rw [List.append_nil, written.writeTogether_ok]
      cases marking with
      | ask answer marking =>
        refine ⟨answer, plan, ?_⟩
        cases answer with
        | ok _ =>
          cases marking
          exact ⟨rfl, rfl⟩
        | error e =>
          cases marking
          exact ⟨rfl, rfl⟩
  · refine .inr ⟨⟨cause, rfl⟩, ?_⟩
    have merges : (mergeRowsTogether ChartPoint.target (found.map ChartPoint.row)
        settings.upsertBatch).Only fun r => ∀ marked, r ≠ .write (.markChartDay marked) :=
      mergeRowsTogether_only nofun nofun nofun
    exact merges.asked failed

/-- An export breaks off while it reads, or it has found out all it needs and goes on to store the
points. -/
theorem write_runs {settings : Settings} {day : Day} {trace : List Event}
    {result : Outcome (List ChartPoint)} (run : Runs (write settings day) trace result) :
    ((∃ failure, result = .error failure) ∧ ∀ e ∈ trace, Asks e.1) ∨
    ∃ (f : Findings) (reads writes : List Event), trace = reads ++ writes ∧
      f.In settings day reads ∧ Runs (storing settings day f.points) writes result := by
  rw [write_eq] at run
  obtain ⟨reads, _, writes, rfl, read, stored⟩ | ⟨cause, failed, rfl⟩ := runs_bind.mp run
  · obtain ⟨f, found, rfl⟩ := reading_ok read
    exact .inr ⟨f, reads, writes, rfl, found, stored⟩
  · exact .inl ⟨⟨cause, rfl⟩, (reading_asks settings day).asked failed⟩

theorem write_ok {settings : Settings} {day : Day} {trace : List Event} {points : List ChartPoint}
    (run : Runs (write settings day) trace (.ok points)) :
    ∃ (f : Findings) (reads : List Event) (planned : List Batch), f.In settings day reads ∧
      points = f.points ∧
      Batch.plan ChartPoint.target (points.map ChartPoint.row) settings.upsertBatch = .ok planned ∧
      trace = reads ++
        (committed (planned.map .merge) ++ [⟨.write (.markChartDay day), .ok ()⟩]) := by
  obtain ⟨⟨_, failed⟩, -⟩ | ⟨f, reads, writes, rfl, found, stored⟩ := write_runs run
  · cases failed
  obtain ⟨planned, answer, plan, rfl, same⟩ | ⟨⟨_, failed⟩, -⟩ :=
    storing_runs found.points_ne_nil stored
  · cases answer with
    | error e => cases same
    | ok _ =>
      cases same
      exact ⟨f, reads, planned, found, rfl, plan, rfl⟩
  · cases failed

end ChartSeries
end ValidatorDays
