import Mathlib
import ValidatorDays.Proofs.Chain.Days
import ValidatorDays.Proofs.Chain.Tiles
import ValidatorDays.Proofs.Income.Windows
import ValidatorDays.Proofs.Upsert.Batches

namespace ValidatorDays

open Program

namespace Transfers

/-- The row is one of those that were found for the day. A withdrawal is written for the day
itself, a deposit for the day that the ledger answers with it: for the genesis block that is the day
before. -/
def Found (day : Day) (window : EpochRange) (first stop : Slot) (seen : List Event) (row : Row) :
    Prop :=
  (∃ found, ⟨.query (.deposits window day), .ok found⟩ ∈ seen ∧ row ∈ found.map Deposits.row) ∨
  ∃ found, ⟨.query (.withdrawals first stop), .ok found⟩ ∈ seen ∧
    row ∈ found.map (Withdrawals.row day)

/-- What the stage may ask: deposits and withdrawals of its window, and no others. What it writes
was found there. -/
def Allowed (day : Day) (window : EpochRange) (first stop : Slot) (seen : List Event) :
    Request → Prop
  | .query (.deposits range d) => range = window ∧ d = day
  | .query (.withdrawals low high) => low = first ∧ high = stop
  | .query (.finalizedEpochs range) => range = day.epochs
  | .write (.merge batch) => ∀ row ∈ batch.rows, Found day window first stop seen row
  | .write (.markExported d c) => d = day ∧ c = .withdrawalsDeposits
  | .begin | .commit | .firstGoesOn => True
  | _ => False

def NoFault (cause : Failure) : Prop := ∀ fault, cause ≠ .fault fault

variable {day : Day} {window : EpochRange} {first stop : Slot}

theorem Found.later {seen later : List Event} {row : Row}
    (found : Found day window first stop seen row) (grown : seen <+: later) :
    Found day window first stop later row := by
  rcases found with ⟨rows, told, inside⟩ | ⟨rows, told, inside⟩
  · exact .inl ⟨rows, grown.subset told, inside⟩
  · exact .inr ⟨rows, grown.subset told, inside⟩

theorem read_keeps (q : Query) (seen : List Event) :
    (readStage q).Keeps (fun _ r => r = .query q) (fun h rows => ⟨.query q, .ok rows⟩ ∈ h)
      (fun _ => NoFault) seen := by
  refine ⟨rfl, fun answer => ?_⟩
  cases answer with
  | ok rows => exact List.mem_append_right _ (List.mem_singleton_self _)
  | error e => exact nofun

theorem reads_keep (day : Day) (window : EpochRange) (first stop : Slot) (seen : List Event) :
    ((readStage (.deposits window day)).both (readStage (.withdrawals first stop))).Keeps
      (Allowed day window first stop)
      (fun h rows => ⟨.query (.deposits window day), .ok rows.1⟩ ∈ h ∧
        ⟨.query (.withdrawals first stop), .ok rows.2⟩ ∈ h)
      (fun _ => NoFault) seen := by
  refine ((read_keeps _ seen).both (read_keeps _ []) (.alone seen)).mono ?_ ?_ ?_
  · rintro h r (rfl | ⟨_, _, -, rfl | rfl⟩)
    · trivial
    · exact ⟨rfl, rfl⟩
    · exact ⟨rfl, rfl⟩
  · rintro h rows ⟨own, other, woven, told, toldToo⟩
    exact ⟨woven.first_sublist.subset told, woven.second_sublist.subset toldToo⟩
  · rintro h cause ⟨_, _, -, sound⟩
    exact sound.elim id id

theorem gate_keeps (seen : List Event) : (ensureDayFinalized day).Keeps
    (Allowed day window first stop) (fun _ _ => True) (fun _ => NoFault) seen := by
  have read : (readStage (.finalizedEpochs day.epochs)).Keeps (Allowed day window first stop)
      (fun _ _ => True) (fun _ => NoFault) seen :=
    (read_keeps _ seen).mono (fun _ _ same => same ▸ rfl) (fun _ _ _ => trivial) fun _ _ => id
  refine read.bind fun h finalized _ => (keeps_ofOutcome ..).mpr ?_
  unfold checkFinalized
  split
  · exact nofun
  · trivial

theorem mark_keeps (seen : List Event) : (markExported day .withdrawalsDeposits).Keeps
    (Allowed day window first stop) (fun _ _ => True) (fun _ => NoFault) seen := by
  refine ⟨⟨rfl, rfl⟩, fun answer => ?_⟩
  cases answer with
  | ok _ => trivial
  | error e => exact nofun

theorem merges_keep {batches : List Batch} {seen : List Event}
    (found : ∀ b ∈ batches, ∀ row ∈ b.rows, Found day window first stop seen row) :
    (writeTogether (batches.map .merge)).Keeps (Allowed day window first stop) (fun _ _ => True)
      (fun _ => NoFault) seen := by
  have statements (h : List Event) (grown : seen <+: h) :
      ((batches.map Write.merge).forM Program.write).Keeps (Allowed day window first stop)
        (fun _ _ => True) (fun _ cause => NoFault cause.asStage) h := by
    induction batches generalizing h with
    | nil => trivial
    | cons batch others ih =>
      obtain ⟨mine, theirs⟩ := List.forall_mem_cons.mp found
      refine ⟨fun row inside => (mine row inside).later grown, fun answer => ?_⟩
      cases answer with
      | ok _ => exact ih theirs _ (grown.trans (List.prefix_append h _))
      | error e => exact nofun
  refine (keeps_mapFailure _ _ _).mpr ⟨trivial, fun answer => ?_⟩
  cases answer with
  | error e => exact nofun
  | ok _ =>
    refine (statements _ (List.prefix_append seen _)).bind fun h _ _ => ⟨trivial, fun answer => ?_⟩
    cases answer with
    | ok _ => trivial
    | error e => exact nofun

theorem planned_keeps {α : Type} {t : Target} {rows : List Row} {size : Nat}
    {f : List Batch → Program α} {seen : List Event}
    (next : ∀ batches, Batch.plan t rows size = .ok batches → (f batches).Keeps
      (Allowed day window first stop) (fun _ _ => True) (fun _ => NoFault) seen) :
    ((ofOutcome (.ofStage (Batch.plan t rows size))).bind f).Keeps
      (Allowed day window first stop) (fun _ _ => True) (fun _ => NoFault) seen := by
  cases planned : Batch.plan t rows size with
  | error e => exact nofun
  | ok batches => exact next batches planned

theorem found_of_plan {t : Target} {rows : List Row} {size : Nat} {batches : List Batch}
    (planned : Batch.plan t rows size = .ok batches) {batch : Batch} (member : batch ∈ batches)
    {row : Row} (inside : row ∈ batch.rows) : row ∈ rows := by
  rw [← Batch.rows_of_plan planned]
  exact List.mem_flatMap_of_mem member inside

/-- Whatever the answers, the stage keeps to its window, and none of its numbers overflows. -/
theorem stage_keeps (settings : Settings) (shifted : day.epochs.shiftedBack = .ok window)
    (bounds : window.slots = .ok (first, stop)) : (stage settings day).Keeps
      (Allowed day window first stop) (fun _ _ => True) (fun _ => NoFault) [] := by
  refine Keeps.bind (gate_keeps []) fun h _ _ => ?_
  refine (keeps_bind ..).mpr ((keeps_ofOutcome ..).mpr ?_)
  rw [shifted]
  refine (keeps_bind ..).mpr ((keeps_ofOutcome ..).mpr ?_)
  rw [bounds]
  refine Keeps.bind (reads_keep day window first stop h) ?_
  rintro h' ⟨deposits, withdrawals⟩ ⟨told, toldToo⟩
  refine planned_keeps fun depositBatches planned => ?_
  refine planned_keeps fun withdrawalBatches plannedToo => ?_
  have found : ∀ b ∈ depositBatches ++ withdrawalBatches, ∀ row ∈ b.rows,
      Found day window first stop h' row := by
    intro batch member row inside
    rcases List.mem_append.mp member with deposit | withdrawal
    · exact .inl ⟨deposits, told, found_of_plan planned deposit inside⟩
    · exact .inr ⟨withdrawals, toldToo, found_of_plan plannedToo withdrawal inside⟩
  split
  · exact mark_keeps h'
  · exact (merges_keep found).bind fun h _ _ => mark_keeps h

/-- The export of the day reads transfers over the window: the deposits by its epochs, and the
withdrawals by its slots. Nothing that this takes overflows. -/
structure Over (day : Day) (window : EpochRange) (first stop : Slot) : Prop where
  epochs : day.epochs.first.number ∈ Bounds.int64 ∧ day.epochs.last.number ∈ Bounds.int64 ∧
    EpochRange.make day.epochs.first day.epochs.last = .ok day.epochs
  shifted : day.epochs.shiftedBack = .ok window
  bounds : window.slots = .ok (first, stop)
  slots : ∀ s : Slot, first.number ≤ s.number ∧ s.number < stop.number ↔ s.epoch ∈ window
  asks : ∀ settings before e after result,
    Runs (stage settings day) (before ++ e :: after) result →
      Allowed day window first stop before e.1
  sound : ∀ settings trace fault, ¬ Runs (stage settings day) trace (.error (.fault fault))
  reads : ∀ settings trace, Runs (stage settings day) trace (.ok ()) → ∀ kind (s : Slot),
    timesRead kind s trace = if s.epoch ∈ window then 1 else 0

theorem Over.of_valid (valid : day.number ∈ Bounds.int32) :
    ∃ window first stop, Over day window first stop := by
  obtain ⟨window, ⟨first, stop⟩, shifted, bounds⟩ := Day.shifted_slots valid
  obtain ⟨least, greatest⟩ := valid
  simp only [Bounds.int32] at least greatest
  refine ⟨window, first, stop, ⟨?_, ?_, ?_⟩, shifted, bounds, EpochRange.mem_slots bounds,
    ?_, ?_, ?_⟩
  · rw [Bounds.mem_iff]
    simp only [Day.epochs, epochsPerDay, Bounds.int64]
    omega
  · rw [Bounds.mem_iff]
    simp only [Day.epochs, epochsPerDay, Bounds.int64]
    omega
  · have forward : ¬ day.epochs.last < day.epochs.first := by
      change ¬ day.epochs.last.number < day.epochs.first.number
      simp only [Day.epochs, epochsPerDay]
      omega
    exact if_neg forward
  · intro settings before e after result run
    exact (stage_keeps settings shifted bounds).asked run
  · intro settings trace fault run
    exact (stage_keeps settings shifted bounds).ends run fault rfl
  · intro settings trace run kind s
    obtain ⟨range, low, high, back, located, asked⟩ := transfers_queries run
    cases shifted.symm.trans back
    cases bounds.symm.trans located
    rw [timesRead, asked.countP_eq]
    cases kind with
    | deposit => simp [Query.covers, List.countP_cons]
    | withdrawal => simp [Query.covers, List.countP_cons, EpochRange.mem_slots bounds]

theorem Over.stretch (read : Over day window first stop) (notBefore : Day.genesis ≤ day) :
    window.stretch = (max (225 * day.number - 1) 0, 225 * day.number + 224) := by
  obtain ⟨starts, ends⟩ := EpochRange.shiftedBack_eq read.shifted
  have start : 0 ≤ day.number := notBefore
  rw [EpochRange.stretch, ends, starts]
  simp only [Day.epochs, epochsPerDay, Prod.mk.injEq]
  omega

theorem tiles_windows {n : Nat} {window : Nat → EpochRange}
    (reached : ∀ d ≤ n, (window d).stretch = (max (225 * (d : Int) - 1) 0, 225 * (d : Int) + 224)) :
    Tiles epochsPerDay 0 ((List.range (n + 1)).map fun d => (window d).stretch)
      (225 * n + 224) := by
  induction n with
  | zero =>
    have only := reached 0 (Nat.le_refl 0)
    rw [List.range_one, List.map_singleton, only]
    exact .single (by decide) (by decide)
  | succ n ih =>
    have before := ih fun d earlier => reached d (Nat.le_succ_of_le earlier)
    have start : max (225 * ((n + 1 : Nat) : Int) - 1) 0 = 225 * (n : Int) + 224 := by omega
    rw [List.range_succ, List.map_append, List.map_singleton, reached (n + 1) (Nat.le_refl _),
      start]
    refine before.append (.single (by omega) ?_)
    rw [epochsPerDay]
    omega

end Transfers

/-- The epochs since genesis are shared out over the days: the windows over which the exports of the
days up to `n` read transfers are consecutive and not empty, and each epoch up to the last but one
of the last day lies in one of them and in no other. The slots of a day are those of its epochs, so
a deposit and a withdrawal in the same block are read by the same export. -/
theorem transfers_tile {n : Nat} (valid : (n : Int) ∈ Bounds.int32) :
    ∃ (window : Nat → EpochRange) (first stop : Nat → Slot),
      Tiles epochsPerDay 0 ((List.range (n + 1)).map fun d => (window d).stretch) (225 * n + 224) ∧
      (∀ e : Epoch, (List.range (n + 1)).countP (fun d => e ∈ window d) =
        if 0 ≤ e.number ∧ e.number ≤ 225 * n + 223 then 1 else 0) ∧
      ∀ d ≤ n, Transfers.Over ⟨d⟩ (window d) (first d) (stop d) := by
  have read (d : Nat) : ∃ window first stop, d ≤ n → Transfers.Over ⟨d⟩ window first stop := by
    by_cases upTo : d ≤ n
    · have inside : (Day.mk d).number ∈ Bounds.int32 := by
        obtain ⟨-, greatest⟩ := valid
        exact ⟨by simp only [Bounds.int32]; omega, by simp only; omega⟩
      obtain ⟨window, first, stop, found⟩ := Transfers.Over.of_valid inside
      exact ⟨window, first, stop, fun _ => found⟩
    · exact ⟨⟨⟨0⟩, ⟨0⟩⟩, ⟨0⟩, ⟨0⟩, fun within => absurd within upTo⟩
  choose window first stop reads using read
  have reached (d : Nat) (upTo : d ≤ n) := (reads d upTo).stretch (Int.natCast_nonneg d)
  have tiles := Transfers.tiles_windows reached
  refine ⟨window, first, stop, tiles, fun e => ?_, reads⟩
  have counted := tiles.count e.number
  rw [List.countP_map] at counted
  have same : Stretch.holds e.number ∘ (fun d => (window d).stretch) =
      fun d => decide (e ∈ window d) := by
    funext d
    simp only [Function.comp_apply, Stretch.holds, EpochRange.stretch, EpochRange.mem_iff,
      Int.lt_add_one_iff]
  rw [same] at counted
  rw [counted]
  congr 1
  simp only [eq_iff_iff]
  omega

theorem transfers_tile_first_days : ((1 : Nat) : Int) ∈ Bounds.int32 ∧ ∃ low high : EpochRange,
    Tiles epochsPerDay 0 [low.stretch, high.stretch] 449 ∧ ∃ exported,
      Runs (Transfers.stage .standard ⟨0⟩) exported (.ok ()) ∧ ∀ kind (s : Slot),
        timesRead kind s exported = if 0 ≤ s.epoch.number ∧ s.epoch.number ≤ 223 then 1 else 0 := by
  have valid : ((1 : Nat) : Int) ∈ Bounds.int32 := by decide
  obtain ⟨exported, _, _, run, -⟩ := first_day_runs
  obtain ⟨window, first, stop, tiles, -, reads⟩ := transfers_tile valid
  have genesis := reads 0 (Nat.zero_le 1)
  have begins : (Day.mk 0).epochs.shiftedBack = .ok ⟨⟨0⟩, ⟨223⟩⟩ := rfl
  have low : window 0 = ⟨⟨0⟩, ⟨223⟩⟩ := Except.ok.inj (genesis.shifted.symm.trans begins)
  refine ⟨valid, window 0, window 1, tiles, exported, run, fun kind s => ?_⟩
  rw [genesis.reads .standard exported run kind s, low]
  rfl

end ValidatorDays
