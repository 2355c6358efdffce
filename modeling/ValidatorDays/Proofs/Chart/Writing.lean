import Mathlib
import ValidatorDays.Proofs.Chart.Counting
import ValidatorDays.Proofs.Chart.Books

namespace ValidatorDays.ChartSeries

open Program

section Course

variable {settings : Settings} {day : Day} {trace : List Event}
  {result : Outcome (List ChartPoint)}

def onward (settings : Settings) (day : Day) (window : ChartWindow) (first : BlockNumber) :
    Program (List ChartPoint) :=
  (rangeFrom settings window first).bind fun blocks =>
    (gathering settings day window blocks).bind (storing settings day)

theorem write_begins {window : ChartWindow} (made : ChartWindow.ofDay day = .ok window) :
    write settings day = (ensureEpochsFinalized day window.epochs).bind fun _ =>
      (firstBlockFrom window.day window.firstSlot).bind (onward settings day window) := by
  have known : (monadLift (ChartWindow.ofDay day) : Program ChartWindow) = .done window := by
    rw [made]
    rfl
  rw [write_eq]
  unfold reading onward
  simp only [Bind.bind, known, bind_assoc, blocksOf_eq, Program.bind]

theorem onward_only {window : ChartWindow} (made : ChartWindow.ofDay day = .ok window)
    (first : BlockNumber) : (onward settings day window first).Only
      fun r => r ≠ .query (.firstBlockFrom window.firstSlot) := by
  obtain ⟨-, -, starts, ends⟩ := ChartWindow.ofDay_eq_ok made
  have other : Request.query (.firstBlockFrom window.endSlot) ≠
      .query (.firstBlockFrom window.firstSlot) := by
    intro same
    rw [Query.firstBlockFrom.inj (Request.query.inj same), starts] at ends
    omega
  apply Only.bind (rangeFrom_only other)
  intro blocks
  apply Only.bind (gathering_only fun r _ others => others window.firstSlot)
  intro found
  apply storing_only
  rintro r changes rfl
  exact changes trivial

theorem write_lookUp {window : ChartWindow} {first : BlockNumber}
    (made : ChartWindow.ofDay day = .ok window) (run : Runs (write settings day) trace result)
    (found : ⟨.query (.firstBlockFrom window.firstSlot), .ok (some first)⟩ ∈ trace) :
    ∃ counted rest, trace = ⟨.query (.finalizedEpochs window.epochs), counted⟩ ::
        ⟨.query (.firstBlockFrom window.firstSlot), .ok (some first)⟩ :: rest ∧
      Runs (onward settings day window first) rest result := by
  have gate {trace : List Event} {result : Outcome Unit}
      (run : Runs (ensureEpochsFinalized day window.epochs) trace result) :
      ∃ counted, trace = [⟨.query (.finalizedEpochs window.epochs), counted⟩] := by
    cases run with
    | ask answer rest =>
      cases answer with
      | ok finalized =>
        obtain ⟨rfl, -⟩ := runs_outcome.mp rest
        exact ⟨_, rfl⟩
      | error e =>
        cases rest
        exact ⟨_, rfl⟩
  rw [write_begins made] at run
  obtain ⟨_, _, later, rfl, gated, looking⟩ | ⟨cause, failed, rfl⟩ := runs_bind.mp run
  · obtain ⟨counted, rfl⟩ := gate gated
    have behind := (List.mem_cons.mp found).resolve_left nofun
    refine ⟨counted, ?_⟩
    cases looking with
    | ask answer others =>
      cases answer with
      | error e =>
        cases others
        cases List.mem_singleton.mp behind
      | ok block =>
        cases block with
        | none =>
          cases others
          cases List.mem_singleton.mp behind
        | some block =>
          cases List.mem_cons.mp behind with
          | inl same =>
            cases same
            exact ⟨_, rfl, others⟩
          | inr later => exact absurd rfl ((onward_only made block).asked others _ later)
  · obtain ⟨counted, rfl⟩ := gate failed
    cases List.mem_singleton.mp found

/-- A day is marked by the last request of its export, once the transaction with its points has been
committed. -/
theorem write_marked {marked : Day} {answer : Except DatabaseError Unit}
    (run : Runs (write settings day) trace result)
    (member : ⟨.write (.markChartDay marked), answer⟩ ∈ trace) :
    marked = day ∧ ∃ (f : Findings) (reads : List Event) (planned : List Batch),
      f.In settings day reads ∧
      Batch.plan ChartPoint.target (f.points.map ChartPoint.row) settings.upsertBatch =
        .ok planned ∧
      trace = reads ++ (committed (planned.map .merge) ++ [⟨.write (.markChartDay day), answer⟩]) ∧
      result = (answer.mapError fun e => (Failure.database e).asStage).map fun _ => f.points := by
  obtain ⟨-, asks⟩ | ⟨f, reads, writes, rfl, found, stored⟩ := write_runs run
  · exact (asks _ member).elim
  have member := (List.mem_append.mp member).resolve_left fun asked => found.only _ asked
  obtain ⟨planned, given, plan, rfl, same⟩ | ⟨-, unmarked⟩ :=
    storing_runs found.points_ne_nil stored
  · have other : ⟨.write (.markChartDay marked), answer⟩ ∉ committed (planned.map .merge) := by
      simp [committed]
    have last := (List.mem_append.mp member).resolve_left other
    cases List.mem_singleton.mp last
    exact ⟨rfl, f, reads, planned, found, plan, rfl, same⟩
  · exact absurd rfl (unmarked _ member marked)

end Course

/-- Whatever the answers, the chart series of a day is written only once the epochs of its window
are final, its blocks lie after the activation, all of them were told and counted, and the numbers
that go with them were read. The day is marked last, once its points are committed, and the export
succeeds just if the mark does. Where something of it was not found out, the export fails and has
changed nothing; of a day that is not after the activation only the database was asked. -/
theorem written_if_founded {settings : Settings} {day : Day} {trace : List Event}
    {result : Outcome (List ChartPoint)} (run : Runs (write settings day) trace result) :
    (∀ e ∈ trace, ¬ Asks e.1 → ∃ (f : Findings) (reads writes : List Event),
      trace = reads ++ writes ∧ f.In settings day reads ∧ e ∈ writes) ∧
    (∀ marked answer, ⟨.write (.markChartDay marked), answer⟩ ∈ trace →
      marked = day ∧ ∃ (f : Findings) (reads : List Event) (planned : List Batch),
        f.In settings day reads ∧
        Batch.plan ChartPoint.target (f.points.map ChartPoint.row) settings.upsertBatch =
          .ok planned ∧
        trace = reads ++
          (committed (planned.map .merge) ++ [⟨.write (.markChartDay day), answer⟩])) ∧
    ((∃ points, result = .ok points) ↔ ⟨.write (.markChartDay day), .ok ()⟩ ∈ trace) ∧
    ((∀ (f : Findings) (reads : List Event), reads <+: trace → ¬ f.In settings day reads) →
      (∃ failure, result = .error failure) ∧ ∀ e ∈ trace, Asks e.1) ∧
    (∀ window first, ChartWindow.ofDay day = .ok window →
      ⟨.query (.firstBlockFrom window.firstSlot), .ok (some first)⟩ ∈ trace →
      first ≤ settings.activationBlock →
      result = .error (.stage (.beforeActivation day first settings.activationBlock)) ∧
        ∀ e ∈ trace, ∃ q, e.1 = .query q) := by
  refine ⟨?founded, ?marked, ?succeeds, ?breaksOff, ?beforeActivation⟩
  case founded =>
    intro e member changes
    obtain ⟨-, asks⟩ | ⟨f, reads, writes, rfl, found, -⟩ := write_runs run
    · exact absurd (asks e member) changes
    · have later := (List.mem_append.mp member).resolve_left fun asked =>
        changes (found.only e asked)
      exact ⟨f, reads, writes, rfl, found, later⟩
  case marked =>
    intro marked answer member
    obtain ⟨same, f, reads, planned, found, plan, whole, -⟩ := write_marked run member
    exact ⟨same, f, reads, planned, found, plan, whole⟩
  case succeeds =>
    constructor
    · rintro ⟨points, rfl⟩
      obtain ⟨f, reads, planned, -, -, -, rfl⟩ := write_ok run
      simp
    · intro member
      obtain ⟨-, f, reads, planned, -, -, -, same⟩ := write_marked run member
      exact ⟨f.points, same⟩
  case breaksOff =>
    intro unfounded
    obtain broken | ⟨f, reads, writes, rfl, found, -⟩ := write_runs run
    · exact broken
    · exact absurd found (unfounded f reads (List.prefix_append _ _))
  case beforeActivation =>
    intro window first made found below
    obtain ⟨counted, rest, rfl, later⟩ := write_lookUp made run found
    obtain ⟨same, -⟩ := ChartWindow.ofDay_eq_ok made
    unfold onward rangeFrom at later
    rw [if_pos below, same] at later
    cases later
    refine ⟨rfl, ?_⟩
    simp

/-- A chain of which each thousand slots bring one block. -/
def fiveBlocksFacts : ChartFacts where
  firstBlock slot := some (slot.number / 1000)
  chain := BlockStream.fiveBlocks
  descending := by decide
  rewards day := ⟨day.number⟩

def fourBlockChunks : Settings :=
  { Settings.standard with activationBlock := 5, chartBlocks := 4 }

set_option maxRecDepth 4000 in
/-- The second day spans the blocks from 10 to 16, of which there are five. They are told in two
chunks. -/
theorem written_if_founded_five_blocks :
    ∃ (trace : List Event) (points : List ChartPoint),
      Runs (write fourBlockChunks ⟨2⟩) trace (.ok points) ∧
      (BlockStream.fetches trace).map Prod.fst = [⟨13, 16⟩, ⟨10, 12⟩] ∧
      ∃ (f : Findings) (reads : List Event) (planned : List Batch),
        f.In fourBlockChunks ⟨2⟩ reads ∧
        Batch.plan ChartPoint.target (f.points.map ChartPoint.row) fourBlockChunks.upsertBatch =
          .ok planned ∧
        trace = reads ++
          (committed (planned.map .merge) ++ [⟨.write (.markChartDay ⟨2⟩), .ok ()⟩]) := by
  have done : (ChartBooks.calmExport fiveBlocksFacts (fun _ => none) fourBlockChunks
    ⟨2⟩).2.toBool = true := by cbv
  obtain ⟨points, run⟩ := ChartBooks.runs_calmExport done
  obtain ⟨-, marked, succeeds, -, -⟩ := written_if_founded run
  obtain ⟨-, whole⟩ := marked ⟨2⟩ (.ok ()) (succeeds.mp ⟨points, rfl⟩)
  exact ⟨_, points, run, by cbv, whole⟩

end ValidatorDays.ChartSeries
