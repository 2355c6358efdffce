import Mathlib
import ValidatorDays.Proofs.Chain.Chunks
import ValidatorDays.Proofs.Chart.Histories
/-! The blocks of consecutive days. The window of a day ends where the next one begins, so a day
stops before the block that the next day starts with: no block is left out, and none is counted on
two days. -/
namespace ValidatorDays.ChartSeries

open Program

def requested (trace : List Event) : List BlockRange := (BlockStream.fetches trace).map Prod.fst

theorem fetches_committed (ws : List Write) : BlockStream.fetches (committed ws) = [] := by
  induction ws with
  | nil => rfl
  | cons w others ih => exact ih

/-- Where the first block from a slot on is asked for, the answer is the one of this ledger. -/
def FromLedger (firstBlock : Slot → Option BlockNumber) : Event → Prop
  | ⟨.query (.firstBlockFrom slot), .ok block⟩ => block = firstBlock slot
  | _ => True

/-- The ranges cover the blocks from the one that the ledger has for the first slot up to the one
that it has for the last. -/
def Between (firstBlock : Slot → Option BlockNumber) (start stop : Slot)
    (ranges : List BlockRange) : Prop :=
  ∃ first last, firstBlock start = some first ∧ firstBlock stop = some last ∧ first ≤ last ∧
    BlockRange.Covers ranges first last

section Days

variable {firstBlock : Slot → Option BlockNumber}

theorem Between.append {start cut stop : Slot} {ranges others : List BlockRange}
    (low : Between firstBlock start cut ranges) (high : Between firstBlock cut stop others) :
    Between firstBlock start stop (ranges ++ others) := by
  obtain ⟨first, middle, starts, cuts, upTo, covers⟩ := low
  obtain ⟨same, last, cutsToo, stops, upToToo, coversToo⟩ := high
  obtain rfl := Option.some.inj (cuts.symm.trans cutsToo)
  exact ⟨first, last, starts, stops, upTo.trans upToToo, covers.append coversToo upTo upToToo⟩

theorem between_requested {settings : Settings} {day : Day} {trace : List Event}
    {points : List ChartPoint} (run : Runs (write settings day) trace (.ok points))
    (ledger : ∀ e ∈ trace, FromLedger firstBlock e) :
    ∃ window, ChartWindow.ofDay day = .ok window ∧
      Between firstBlock window.firstSlot window.endSlot (requested trace) := by
  obtain ⟨findings, reads, planned, read, rfl, -, rfl⟩ := write_ok run
  have first := ledger _ (List.mem_append_left _ read.first)
  have stop := ledger _ (List.mem_append_left _ read.stop)
  refine ⟨findings.window, read.window, findings.first, findings.stop, first.symm, stop.symm,
    read.blocks.le, ?_⟩
  have covers := BlockRange.covers_descending (Int.le_sub_one_of_lt read.blocks) read.chunks
  rw [Int.sub_add_cancel] at covers
  rw [requested, BlockStream.fetches_append, BlockStream.fetches_append, read.fetched,
    fetches_committed, List.map_append, List.map_map]
  exact (List.append_nil _).symm ▸ covers

/-- Over consecutive days that have all been exported, no range that is asked for overlaps another.
Together they hold the blocks from the first of the first day up to the first one after the last
day, which is not among them. -/
theorem requested_covers {start : Int} {count : Nat} {settings : Nat → Settings}
    {traces : Nat → List Event}
    (exported : ∀ i ≤ count, ∃ points,
      Runs (write (settings i) ⟨start + i⟩) (traces i) (.ok points))
    (ledger : ∀ i ≤ count, ∀ e ∈ traces i, FromLedger firstBlock e) :
    ∃ opening closing first stop, ChartWindow.ofDay ⟨start⟩ = .ok opening ∧
      ChartWindow.ofDay ⟨start + count⟩ = .ok closing ∧
      firstBlock opening.firstSlot = some first ∧ firstBlock closing.endSlot = some stop ∧
      ((List.range (count + 1)).flatMap fun i => requested (traces i)).Pairwise BlockRange.Apart ∧
      ∀ number : Int, (∃ range ∈ (List.range (count + 1)).flatMap fun i => requested (traces i),
        number ∈ range) ↔ first ≤ number ∧ number < stop := by
  suffices between : ∃ opening closing, ChartWindow.ofDay ⟨start⟩ = .ok opening ∧
      ChartWindow.ofDay ⟨start + count⟩ = .ok closing ∧
      Between firstBlock opening.firstSlot closing.endSlot
        ((List.range (count + 1)).flatMap fun i => requested (traces i)) by
    obtain ⟨opening, closing, opens, closes, first, stop, starts, stops, -, covers⟩ := between
    exact ⟨opening, closing, first, stop, opens, closes, starts, stops, covers.apart,
      covers.mem_iff⟩
  induction count with
  | zero =>
    obtain ⟨points, run⟩ := exported 0 le_rfl
    obtain ⟨window, made, between⟩ := between_requested run (ledger 0 le_rfl)
    rw [Nat.cast_zero, add_zero] at made ⊢
    exact ⟨window, window, made, made, by simpa using between⟩
  | succ n ih =>
    obtain ⟨opening, closing, opens, closes, earlier⟩ :=
      ih (fun i upTo => exported i (Nat.le_succ_of_le upTo))
        (fun i upTo => ledger i (Nat.le_succ_of_le upTo))
    obtain ⟨points, run⟩ := exported (n + 1) le_rfl
    obtain ⟨window, made, last⟩ := between_requested run (ledger (n + 1) le_rfl)
    refine ⟨opening, window, opens, made, ?_⟩
    rw [List.range_succ, List.flatMap_append, List.flatMap_singleton]
    rw [← ChartWindow.endSlot_eq closes made (by push_cast; ring)] at last
    exact earlier.append last

end Days

theorem fromLedger_calm (f : ChartFacts) (emission : Instant → Option Decimal) (r : Request) :
    FromLedger f.firstBlock ⟨r, ChartBooks.calmAnswer f emission r⟩ := by
  cases r with
  | query q =>
    cases q with
    | firstBlockFrom slot => exact rfl
    | _ => trivial
  | _ => trivial

/-- Chunks of four thousand blocks, on a chain that was activated with its first one. -/
def smallChunks : Settings := { Settings.standard with activationBlock := 0, chartBlocks := 4000 }

/-- Two days of a chain on which blocks have the numbers of their slots. -/
theorem requested_covers_two_days :
    ∃ traces : Nat → List Event,
      (∀ i : Nat, i ≤ 1 → ∃ points, Runs (write smallChunks ⟨1 + i⟩) (traces i) (.ok points)) ∧
      (∀ i ≤ 1, ∀ e ∈ traces i, FromLedger ChartFacts.bare.firstBlock e) ∧
      ((List.range 2).flatMap fun i => requested (traces i)) =
        [⟨6784, 10783⟩, ⟨3584, 6783⟩, ⟨13984, 17983⟩, ⟨10784, 13983⟩] ∧
      ∀ number : Int, (∃ range ∈ (List.range 2).flatMap fun i => requested (traces i),
        number ∈ range) ↔ 3584 ≤ number ∧ number < 17984 := by
  have exported : ∀ i : Nat, i ≤ 1 → ∃ points, Runs (write smallChunks ⟨1 + i⟩)
      (ChartBooks.calmExport .bare (fun _ => none) smallChunks ⟨1 + i⟩).1 (.ok points) := by
    intro i upTo
    apply ChartBooks.runs_calmExport
    interval_cases i
    · cbv
    · cbv
  have ledger : ∀ i : Nat, i ≤ 1 →
      ∀ e ∈ (ChartBooks.calmExport .bare (fun _ => none) smallChunks ⟨1 + i⟩).1,
        FromLedger ChartFacts.bare.firstBlock e := by
    rintro i - ⟨r, answer⟩ member
    have same : answer = ChartBooks.calmAnswer .bare (fun _ => none) r :=
      steady_answers _ _ ⟨r, answer⟩ member
    rw [same]
    exact fromLedger_calm _ _ r
  obtain ⟨opening, closing, first, stop, opens, closes, starts, stops, -, covers⟩ :=
    requested_covers exported ledger
  obtain ⟨-, -, begins, -⟩ := ChartWindow.ofDay_eq_ok opens
  obtain ⟨-, -, -, ends⟩ := ChartWindow.ofDay_eq_ok closes
  cases starts
  cases stops
  rw [begins, ends] at covers
  exact ⟨_, exported, ledger, by cbv, covers⟩

end ValidatorDays.ChartSeries
