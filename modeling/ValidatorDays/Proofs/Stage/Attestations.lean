import Mathlib
import ValidatorDays.Proofs.Chain.Pieces
import ValidatorDays.Proofs.Stage.Targets
import ValidatorDays.Proofs.Status.Books
import ValidatorDays.Proofs.Tally.Entries
import ValidatorDays.Proofs.Upsert.Written
import ValidatorDays.Stage.Indexed

namespace ValidatorDays

open Program

theorem Tiles.sum {M : Type} [AddCommMonoid M] {width start stop : Int} {pieces : List Stretch}
    (tiles : Tiles width start pieces stop) (f : Int → M) :
    (pieces.map fun s => ∑ n ∈ Finset.Ico s.1 s.2, f n).sum = ∑ n ∈ Finset.Ico start stop, f n := by
  induction tiles with
  | nil start => simp
  | @cons start cut stop rest proper narrow others ih =>
    have onward := others.le
    rw [List.map_cons, List.sum_cons, ih,
      ← Finset.Ico_union_Ico_eq_Ico (Int.le_of_lt proper) onward,
      Finset.sum_union (Finset.Ico_disjoint_Ico_consecutive start cut stop)]

namespace FailedAttestations

def counts (f : FailedAttestations) : Counts := (f.missed, f.orphaned)

def listed (i : ValidatorIndex) (found : List FailedAttestations) : Counts :=
  ((found.filter fun f => f.index = i).map counts).sum

/-- How often a validator has failed in the epochs of a range. -/
noncomputable def total (fails : ValidatorIndex → Epoch → Counts) (i : ValidatorIndex)
    (r : EpochRange) : Counts :=
  ∑ e ∈ Finset.Icc r.first.number r.last.number, fails i ⟨e⟩

/-- The answer for a range adds up to what has been failed in its epochs. -/
structure Additive (fails : ValidatorIndex → Epoch → Counts) (range : EpochRange)
    (found : List FailedAttestations) : Prop where
  nonneg : ∀ f ∈ found, 0 ≤ f.counts
  sums : ∀ i, listed i found = total fails i range

/-- The most that a row can hold. -/
def Counts.most : Counts := (Bounds.int32.greatest, Bounds.int32.greatest)

variable {fails : ValidatorIndex → Epoch → Counts}

theorem listed_append (i : ValidatorIndex) (found more : List FailedAttestations) :
    listed i (found ++ more) = listed i found + listed i more := by
  rw [listed, List.filter_append, List.map_append, List.sum_append]
  rfl

theorem listed_flatten (i : ValidatorIndex) (windows : List (List FailedAttestations)) :
    listed i windows.flatten = (windows.map (listed i)).sum := by
  induction windows with
  | nil => rfl
  | cons found others ih => rw [List.flatten_cons, listed_append, ih, List.map_cons, List.sum_cons]

theorem listed_nonneg (i : ValidatorIndex) {found : List FailedAttestations}
    (nonneg : ∀ f ∈ found, 0 ≤ f.counts) : 0 ≤ listed i found := by
  apply List.sum_nonneg
  intro c member
  obtain ⟨f, inside, rfl⟩ := List.mem_map.mp member
  exact nonneg f (List.mem_of_mem_filter inside)

theorem addTo_ok {f : FailedAttestations} {before : Option Counts}
    (nonneg : 0 ≤ before.getD 0 + f.counts) (fits : before.getD 0 + f.counts ≤ Counts.most) :
    f.addTo before = .ok (before.getD 0 + f.counts) := by
  obtain ⟨missed, orphaned⟩ := nonneg
  obtain ⟨missedFits, orphanedFits⟩ := fits
  have inside {n : Int} (low : 0 ≤ n) (high : n ≤ Bounds.int32.greatest) :
      Bounds.int32.check n = .ok n :=
    Bounds.check_of_mem ⟨Int.le_trans (by decide) low, high⟩
  change (do return (← Bounds.int32.check ((before.getD 0).1 + f.missed),
    ← Bounds.int32.check ((before.getD 0).2 + f.orphaned))) = _
  rw [inside (n := (before.getD 0).1 + f.missed) missed missedFits,
    inside (n := (before.getD 0).2 + f.orphaned) orphaned orphanedFits]
  rfl

theorem tallied {found : List FailedAttestations} (nonneg : ∀ f ∈ found, 0 ≤ f.counts)
    (fits : ∀ i, listed i found ≤ Counts.most) : ∃ t : Tally Counts,
      found.foldlM (fun t f => Tally.change f.index f.addTo t) [] = .ok t ∧ t.Ascending ∧
        ∀ i, (t.lookup i).getD 0 = listed i found := by
  induction found using List.reverseRecOn with
  | nil => exact ⟨[], rfl, List.Pairwise.nil, fun _ => rfl⟩
  | append_singleton found f ih =>
    have early : ∀ f ∈ found, 0 ≤ f.counts := fun g member =>
      nonneg g (List.mem_append_left _ member)
    have late : ∀ g ∈ [f], 0 ≤ g.counts := fun g member =>
      nonneg g (List.mem_append_right _ member)
    have before (i : ValidatorIndex) : listed i found ≤ Counts.most := by
      have grown := fits i
      rw [listed_append] at grown
      exact (le_add_of_nonneg_right (listed_nonneg i late)).trans grown
    obtain ⟨t, summed, ascending, entries⟩ := ih early before
    have own : listed f.index [f] = f.counts := by simp [listed]
    have others {i : ValidatorIndex} (other : i ≠ f.index) : listed i [f] = 0 := by
      simp [listed, Ne.symm other]
    have entered : f.addTo (t.lookup f.index) = .ok (listed f.index (found ++ [f])) := by
      rw [listed_append, own, ← entries]
      apply addTo_ok
      · rw [entries]
        exact add_nonneg (listed_nonneg _ early) (late f (List.mem_singleton_self f))
      · have grown := fits f.index
        rwa [listed_append, own, ← entries] at grown
    obtain ⟨u, changed, still, found'⟩ := Tally.change_ok ascending entered
    refine ⟨u, ?_, still, fun i => ?_⟩
    · rw [List.foldlM_append]
      exact bind_eq_ok.mpr ⟨t, summed, bind_eq_ok.mpr ⟨u, changed, rfl⟩⟩
    · rw [found']
      split
      · rename_i same
        rw [same]
        rfl
      · rename_i other
        rw [entries, listed_append, others other, add_zero]

theorem sumUp_ok {windows : List (List FailedAttestations)}
    (nonneg : ∀ f ∈ windows.flatten, 0 ≤ f.counts)
    (fits : ∀ i, listed i windows.flatten ≤ Counts.most) : ∃ failures,
      sumUp windows = .ok failures ∧ (failures.map (·.index)).Nodup ∧
        (∀ f ∈ failures, f.counts = listed f.index windows.flatten) ∧
        ∀ i, (∀ f ∈ failures, f.index ≠ i) → listed i windows.flatten = 0 := by
  obtain ⟨t, summed, ascending, entries⟩ := tallied nonneg fits
  let entry (e : Int × Counts) : FailedAttestations := ⟨e.1, e.2.1, e.2.2⟩
  refine ⟨t.map entry, bind_eq_ok.mpr ⟨t, summed, rfl⟩, ?_, ?_, ?_⟩
  · rw [List.map_map]
    exact ascending.nodup
  · intro f member
    obtain ⟨e, inside, rfl⟩ := List.mem_map.mp member
    rw [← entries, ascending.mem_iff.mp inside]
    rfl
  · intro i absent
    have unlisted : t.lookup i = none := List.lookup_eq_none_iff.mpr fun e inside =>
      bne_iff_ne.mpr (absent (entry e) (List.mem_map_of_mem inside)).symm
    rw [← entries, unlisted]
    rfl

theorem listed_windows {told : List (EpochRange × List FailedAttestations)}
    {windows : List EpochRange} {width : Int} {r : EpochRange}
    (additive : ∀ answer ∈ told, Additive fails answer.1 answer.2)
    (tiles : Tiles width r.first.number (windows.map EpochRange.stretch) (r.last.number + 1))
    (all : (told.map Prod.fst).Perm windows) (i : ValidatorIndex) :
    listed i (told.map Prod.snd).flatten = total fails i r := by
  calc listed i (told.map Prod.snd).flatten
      = (told.map fun answer => total fails i answer.1).sum := by
        rw [listed_flatten, List.map_map]
        congr 1
        exact List.map_congr_left fun answer member => (additive answer member).sums i
    _ = (windows.map (total fails i)).sum := by
        rw [← (all.map (total fails i)).sum_eq, List.map_map]
        rfl
    _ = ((windows.map EpochRange.stretch).map fun s =>
          ∑ n ∈ Finset.Ico s.1 s.2, fails i ⟨n⟩).sum := by
        rw [List.map_map]
        rfl
    _ = total fails i r := by
        rw [tiles.sum]
        rfl

/-- What is summed up from the windows of a range is what was failed on the range. -/
theorem sumUp_windows {told : List (EpochRange × List FailedAttestations)}
    {windows : List EpochRange} {width : Int} {r : EpochRange}
    (additive : ∀ answer ∈ told, Additive fails answer.1 answer.2)
    (tiles : Tiles width r.first.number (windows.map EpochRange.stretch) (r.last.number + 1))
    (all : (told.map Prod.fst).Perm windows) (fits : ∀ i, total fails i r ≤ Counts.most) :
    ∃ failures, sumUp (told.map Prod.snd) = .ok failures ∧ (failures.map (·.index)).Nodup ∧
      (∀ f ∈ failures, f.counts = total fails f.index r) ∧
      ∀ i, (∀ f ∈ failures, f.index ≠ i) → total fails i r = 0 := by
  have sums := listed_windows additive tiles all
  have nonneg : ∀ f ∈ (told.map Prod.snd).flatten, 0 ≤ f.counts := by
    intro f member
    obtain ⟨found, window, inside⟩ := List.mem_flatten.mp member
    obtain ⟨answer, inTold, rfl⟩ := List.mem_map.mp window
    exact (additive answer inTold).nonneg f inside
  obtain ⟨failures, summed, distinct, whole, absent⟩ :=
    sumUp_ok nonneg fun i => (sums i).trans_le (fits i)
  refine ⟨failures, summed, distinct, fun f member => ?_, fun i left => ?_⟩
  · rw [whole f member, sums]
  · rw [← sums, absent i left]

section Stage

variable {settings : Settings} {day : Day} {windows : List EpochRange} {trace : List Event}
  {result : Outcome Unit}

def storing (settings : Settings) (day : Day) (partials : List (List FailedAttestations)) :
    Program Unit :=
  (ofOutcome (.ofChecked (sumUp partials))).bind fun failures =>
    (mergeRows (settings.group "failed_attestations") target (failures.map (row day))
      settings.upsertBatch).bind fun _ => markExported day .failedAttestations

def asking (settings : Settings) (windows : List EpochRange) :
    Program (List (List FailedAttestations)) :=
  (settings.group "failed_attestations").run .fetches (windows.map window)

theorem runs_gate (run : Runs (ensureDayFinalized day) trace result) :
    ∃ answer, trace = [⟨Stage.gate day, answer⟩] ∧
      ∀ cause, result = .error cause → ¬ cause.IsOwn := by
  cases run with
  | ask answer rest =>
    cases answer with
    | error e =>
      cases rest
      exact ⟨_, rfl, fun cause same => by cases same; exact id⟩
    | ok n =>
      obtain ⟨rfl, rfl⟩ := runs_outcome.mp rest
      refine ⟨_, rfl, fun cause same => ?_⟩
      unfold checkFinalized at same
      split at same
      · cases same
        exact id
      · cases same

theorem runs_mark (run : Runs (markExported day .failedAttestations) trace result) :
    ∃ answer, trace = [⟨Stage.mark day .failedAttestations, answer⟩] ∧
      ∀ cause, result = .error cause → ¬ cause.IsOwn := by
  cases run with
  | ask answer rest =>
    cases answer with
    | error e =>
      cases rest
      exact ⟨_, rfl, fun cause same => by cases same; exact id⟩
    | ok _ =>
      cases rest
      exact ⟨_, rfl, nofun⟩

theorem runs_stage (cut : day.epochs.split settings.attestationEpochs = .ok windows)
    (run : Runs (stage settings day) trace result) : ∃ answer rest,
      trace = ⟨Stage.gate day, answer⟩ :: rest ∧
      ((rest = [] ∧ ∃ cause, result = .error cause ∧ ¬ cause.IsOwn) ∨
      (∃ cause, Runs (asking settings windows) rest (.error cause) ∧ result = .error cause) ∨
      ∃ asked partials stored, rest = asked ++ stored ∧
        Runs (asking settings windows) asked (.ok partials) ∧
        Runs (storing settings day partials) stored result) := by
  rcases runs_bind.mp run with ⟨first, _, rest, rfl, gated, passed⟩ | ⟨cause, gated, rfl⟩
  · obtain ⟨answer, rfl, -⟩ := runs_gate gated
    refine ⟨answer, rest, rfl, .inr ?_⟩
    have onward : Runs ((ofOutcome (.ofChecked (day.epochs.split settings.attestationEpochs))).bind
        fun windows => (asking settings windows).bind fun partials =>
          storing settings day partials) rest result := passed
    rw [cut] at onward
    change Runs ((asking settings windows).bind _) rest result at onward
    rcases runs_bind.mp onward with ⟨asked, partials, stored, rfl, answered, stores⟩ |
      ⟨cause, unanswered, rfl⟩
    · exact .inr ⟨asked, partials, stored, rfl, answered, stores⟩
    · exact .inl ⟨cause, unanswered, rfl⟩
  · obtain ⟨answer, rfl, foreign⟩ := runs_gate gated
    exact ⟨answer, [], rfl, .inl ⟨rfl, cause, rfl, foreign cause rfl⟩⟩

/-- No window is asked for twice. If all goes well each has been asked for and answered, and the
answers are all that there is to store. -/
theorem runs_asking {outcome : Outcome (List (List FailedAttestations))}
    (run : Runs (asking settings windows) trace outcome) :
    trace.flatMap Event.rows = [] ∧ (trace.flatMap Event.startsFetch).Subperm windows ∧
      (∀ partials, outcome = .ok partials → (trace.flatMap Event.startsFetch).Perm windows ∧
        ((trace.flatMap Event.fetched).map Prod.fst).Perm windows ∧
        (trace.flatMap Event.fetched).map Prod.snd = partials) ∧
      ∀ cause, outcome = .error cause → ¬ cause.IsOwn := by
  have actions : (windows.map window).flatMap Job.actions = windows := by
    rw [List.flatMap_map]
    exact List.flatMap_singleton' windows
  have single : ∀ job ∈ windows.map window, job.rest = [] := by
    intro job member
    obtain ⟨range, -, rfl⟩ := List.mem_map.mp member
    rfl
  let group := settings.group "failed_attestations"
  have asks := (Carrier.asks_fetches group (windows.map window)).asked run
  have rows : trace.flatMap Event.rows = [] :=
    List.flatMap_eq_nil_iff.mpr fun e member => Event.rows_of_fetches (asks e member)
  have issued := (Carrier.traced_fetches.run group).ends run
  have tidy : (asking settings windows).Tidy fun _ => False := .fetches group (windows.map window)
  have landed := tidy.ends run
  cases outcome with
  | error cause =>
    rw [actions] at issued
    refine ⟨rows, issued, nofun, fun cause same => ?_⟩
    cases same
    exact (Carrier.run_fetches_foreign group _).ends run
  | ok partials =>
    obtain ⟨started, told⟩ := issued
    rw [actions] at started
    refine ⟨rows, started.subperm, fun _ same => ?_, nofun⟩
    cases same
    refine ⟨started, ?_, told single⟩
    have answered := landed.fetches
    rw [List.append_nil] at answered
    have lands : trace.flatMap Event.landsFetch = (trace.flatMap Event.fetched).map Prod.fst := by
      rw [List.map_flatMap]
      exact List.flatMap_congr fun e _ => e.landsFetch_eq
    exact lands ▸ answered.symm.trans started

theorem runs_storing {partials : List (List FailedAttestations)}
    {failures : List FailedAttestations} (summed : sumUp partials = .ok failures)
    (run : Runs (storing settings day partials) trace result) :
    trace.flatMap Event.startsFetch = [] ∧ trace.flatMap Event.fetched = [] ∧
      (trace.flatMap Event.rows).Subperm (failures.map (row day)) ∧
      (result = .ok () → (trace.flatMap Event.rows).Perm (failures.map (row day))) ∧
      ∀ cause, result = .error cause → ¬ cause.IsOwn := by
  have fit : ∀ r ∈ failures.map (row day), r.length = target.columns.length := by
    intro r member
    obtain ⟨f, -, rfl⟩ := List.mem_map.mp member
    rfl
  have quiet {written : List Event} (asks : ∀ e ∈ written, e.1.OfWrites) :
      written.flatMap Event.startsFetch = [] ∧ written.flatMap Event.fetched = [] := by
    simp only [List.flatMap_eq_nil_iff]
    exact ⟨fun e member => Event.startsFetch_eq_nil (asks e member).not_ofFetches,
      fun e member => Event.fetched_eq_nil (asks e member).not_ofFetches⟩
  unfold storing at run
  rw [summed] at run
  change Runs ((mergeRows _ _ _ _).bind fun _ => markExported day _) trace result at run
  rcases runs_bind.mp run with ⟨written, count, rest, rfl, merged, marks⟩ | ⟨cause, merged, rfl⟩
  · obtain ⟨asks, -, whole, -⟩ := mergeRows_writes fit merged
    obtain ⟨answer, rfl, foreign⟩ := runs_mark marks
    have all := whole count rfl
    obtain ⟨starts, fetched⟩ := quiet asks
    simp only [List.flatMap_append, List.flatMap_singleton, starts, fetched, List.nil_append]
    change [] = [] ∧ [] = [] ∧ (_ ++ []).Subperm _ ∧ (_ → (_ ++ []).Perm _) ∧ _
    rw [List.append_nil]
    exact ⟨rfl, rfl, all.subperm, fun _ => all, foreign⟩
  · obtain ⟨asks, fromPlan, -, foreign⟩ := mergeRows_writes fit merged
    refine ⟨(quiet asks).1, (quiet asks).2, fromPlan, nofun, fun other same => ?_⟩
    cases same
    exact foreign cause rfl

theorem gate_silent (answer : (Stage.gate day).Answer) :
    Event.startsFetch ⟨Stage.gate day, answer⟩ = [] ∧ Event.fetched ⟨Stage.gate day, answer⟩ = [] ∧
      Event.rows ⟨Stage.gate day, answer⟩ = [] := ⟨rfl, rfl, rfl⟩

structure AskedOnce (windows : List EpochRange) (trace : List Event) : Prop where
  asked : (trace.flatMap Event.startsFetch).Perm windows
  answered : ((trace.flatMap Event.fetched).map Prod.fst).Perm windows

theorem stage_fails (run : Runs (stage settings day) trace result) {cause : Failure}
    (failed : result = .error cause) (foreign : ¬ cause.IsOwn) :
    Marred trace ∨ Stage.TooFewFinal day trace := by
  subst failed
  have ends := (Stage.failedAttestations_gated settings day).ends run
  rcases Stage.Failed.reason ends with marred | own | unmet | short
  · exact .inl marred
  · exact absurd own foreign
  · obtain ⟨rs, required, r, member, -⟩ := unmet
    cases required
    cases member
  · exact .inr short

/-- Suppose the indexer's answers for ranges of epochs add up from what validators failed in each
epoch, and no total of the day leaves its range. Then the windows hold each epoch of the day once,
none of them is asked for twice, and each row that is written gives a validator what it failed on
the whole day, in whatever order the answers come. No validator has two rows. A run that ends well
has written all rows, and who has none has not failed. Only a failed answer or the gate keeps a run
from ending well. -/
theorem windows_add_up (cut : day.epochs.split settings.attestationEpochs = .ok windows)
    (additive : ∀ answer ∈ trace.flatMap Event.fetched, Additive fails answer.1 answer.2)
    (fits : ∀ i, total fails i day.epochs ≤ Counts.most)
    (run : Runs (stage settings day) trace result) :
    Tiles (max settings.attestationEpochs 1) day.epochs.first.number
      (windows.map EpochRange.stretch) (day.epochs.last.number + 1) ∧
    (trace.flatMap Event.startsFetch).Subperm windows ∧
    ∃ failures : List FailedAttestations, (failures.map (·.index)).Nodup ∧
      (∀ f ∈ failures, f.counts = total fails f.index day.epochs) ∧
      (∀ e ∈ trace, ∀ batch, .merge batch ∈ e.1.writes → batch.target = target) ∧
      (trace.flatMap Event.rows).Subperm (failures.map (row day)) ∧
      (trace.flatMap Event.rows ≠ [] → AskedOnce windows trace) ∧
      (result = .ok () → AskedOnce windows trace ∧ WentWell trace ∧
        (trace.flatMap Event.rows).Perm (failures.map (row day)) ∧
        ∀ i, (∀ f ∈ failures, f.index ≠ i) → total fails i day.epochs = 0) ∧
      ∀ cause, result = .error cause → Marred trace ∨ Stage.TooFewFinal day trace := by
  have forward : day.epochs.first ≤ day.epochs.last := by
    change day.number * 225 ≤ day.number * 225 + 224
    omega
  have tiles := EpochRange.tiles_split forward cut
  refine ⟨tiles, ?_⟩
  have well (fine : result = .ok ()) : WentWell trace := by
    subst fine
    obtain ⟨before, rfl, smoothly, -⟩ := (Stage.failedAttestations_gated settings day).ends run
    exact smoothly.append (.write _)
  have aimed : ∀ e ∈ trace, ∀ batch, .merge batch ∈ e.1.writes → batch.target = target := by
    intro e member batch issued
    exact List.mem_singleton.mp ((failedAttestations_into settings day).asked run e member _ issued)
  have blamed (foreign : ∀ cause, result = .error cause → ¬ cause.IsOwn) (cause : Failure)
      (failed : result = .error cause) : Marred trace ∨ Stage.TooFewFinal day trace :=
    stage_fails run failed (foreign cause failed)
  obtain ⟨gated, rest, rfl, ended⟩ := runs_stage cut run
  obtain ⟨starts, tells, writes⟩ := gate_silent gated
  rcases ended with ⟨rfl, cause, rfl, foreign⟩ | ⟨cause, unanswered, rfl⟩ |
    ⟨asked, partials, stored, rfl, answered, stores⟩
  · refine ⟨List.nil_subperm, [], .nil, nofun, aimed, List.nil_subperm,
      fun stored => absurd rfl stored, nofun, blamed fun other same => ?_⟩
    cases same
    exact foreign
  · obtain ⟨nothing, issued, -, foreign⟩ := runs_asking unanswered
    simp only [List.flatMap_cons, starts, writes, List.nil_append, nothing]
    refine ⟨issued, [], .nil, nofun, aimed, List.nil_subperm, fun stored => absurd rfl stored, nofun,
      blamed fun other same => ?_⟩
    cases same
    exact foreign cause rfl
  · obtain ⟨nothing, -, all, -⟩ := runs_asking answered
    obtain ⟨started, ranges, told⟩ := all partials rfl
    have additive : ∀ answer ∈ asked.flatMap Event.fetched, Additive fails answer.1 answer.2 := by
      intro answer member
      refine additive answer ?_
      rw [List.flatMap_cons, List.flatMap_append]
      exact List.mem_append_right _ (List.mem_append_left _ member)
    obtain ⟨failures, summed, distinct, whole, absent⟩ := sumUp_windows additive tiles ranges fits
    rw [told] at summed
    obtain ⟨noStarts, noTells, fromPlan, written, foreign⟩ := runs_storing summed stores
    have once : AskedOnce windows (⟨Stage.gate day, gated⟩ :: (asked ++ stored)) := by
      constructor
      · rw [List.flatMap_cons, List.flatMap_append, starts, noStarts, List.append_nil]
        exact started
      · rw [List.flatMap_cons, List.flatMap_append, tells, noTells, List.append_nil]
        exact ranges
    have rows : (⟨Stage.gate day, gated⟩ :: (asked ++ stored) : List Event).flatMap Event.rows =
        stored.flatMap Event.rows := by
      rw [List.flatMap_cons, List.flatMap_append, writes, nothing]
      rfl
    rw [rows]
    exact ⟨once.asked.subperm, failures, distinct, whole, aimed, fromPlan, fun _ => once,
      fun fine => ⟨once, well fine, written fine, absent⟩, blamed foreign⟩

end Stage

def alwaysSeven (i : ValidatorIndex) (_ : Epoch) : Counts := if i = 7 then (1, 0) else 0

def sevenFound (r : EpochRange) : List FailedAttestations :=
  [⟨7, (r.last.number + 1 - r.first.number).toNat, 0⟩]

def sevenWorld : (r : Request) → r.Answer
  | .awaitFetches (range :: others) =>
    some ((0 : Fin (others.length + 1)), .ok (sevenFound range))
  | r => Books.calmAnswer 0 .empty r

theorem total_seven (i : ValidatorIndex) (r : EpochRange) : total alwaysSeven i r =
    if i = 7 then (((r.last.number + 1 - r.first.number).toNat : Int), 0) else 0 := by
  rw [total]
  simp only [alwaysSeven]
  split
  · rw [Finset.sum_const, Int.card_Icc]
    simp
  · exact Finset.sum_const_zero

theorem seven_additive (r : EpochRange) : Additive alwaysSeven r (sevenFound r) := by
  constructor
  · intro f member
    cases List.mem_singleton.mp member
    exact ⟨Int.natCast_nonneg _, Int.le_refl 0⟩
  · intro i
    rw [total_seven]
    by_cases seven : i = 7
    · simp [listed, sevenFound, counts, seven]
    · simp [listed, sevenFound, seven, Ne.symm seven]

theorem seven_told {e : Event} (same : e.2 = sevenWorld e.1) :
    ∀ answer ∈ e.fetched, answer.2 = sevenFound answer.1 := by
  obtain ⟨r, answer⟩ := e
  obtain rfl : answer = sevenWorld r := same
  cases r with
  | awaitFetches underWay =>
    cases underWay with
    | nil => nofun
    | cons range others =>
      intro answer member
      cases List.mem_singleton.mp member
      rfl
  | _ => nofun

def threeWindows : Settings := { Settings.standard with attestationEpochs := 100 }

theorem seven_runs : ∃ trace, Runs (stage threeWindows ⟨0⟩) trace (.ok ()) ∧
    ∀ e ∈ trace, e.2 = sevenWorld e.1 := by
  have run := runs_observe (steady sevenWorld) (stage threeWindows ⟨0⟩) ()
  have well : ((stage threeWindows ⟨0⟩).observe (steady sevenWorld) ()).2 = .ok () := by cbv
  rw [well] at run
  exact ⟨_, run, steady_answers sevenWorld _⟩

theorem windows_add_up_seven : ∃ windows trace,
    (Day.mk 0).epochs.split threeWindows.attestationEpochs = .ok windows ∧ windows.length = 3 ∧
      Runs (stage threeWindows ⟨0⟩) trace (.ok ()) ∧
      (trace.flatMap Event.startsFetch).Perm windows ∧
      [.int4 7, .ofDay ⟨0⟩, .int4 225, .int4 0] ∈ trace.flatMap Event.rows := by
  obtain ⟨trace, run, answers⟩ := seven_runs
  have cut : (Day.mk 0).epochs.split threeWindows.attestationEpochs =
      .ok [⟨⟨0⟩, ⟨99⟩⟩, ⟨⟨100⟩, ⟨199⟩⟩, ⟨⟨200⟩, ⟨224⟩⟩] := by cbv
  have additive : ∀ answer ∈ trace.flatMap Event.fetched,
      Additive alwaysSeven answer.1 answer.2 := by
    intro answer member
    obtain ⟨e, inside, told⟩ := List.mem_flatMap.mp member
    rw [seven_told (answers e inside) answer told]
    exact seven_additive answer.1
  have fits (i : ValidatorIndex) : total alwaysSeven i (Day.mk 0).epochs ≤ Counts.most := by
    rw [total_seven]
    split <;> exact ⟨by decide, by decide⟩
  obtain ⟨-, -, failures, -, whole, -, -, -, fine, -⟩ := windows_add_up cut additive fits run
  obtain ⟨once, -, rows, left⟩ := fine rfl
  have listed : ∃ f ∈ failures, f.index = 7 := by
    by_contra missing
    have nothing := left 7 fun f member same => missing ⟨f, member, same⟩
    rw [total_seven] at nothing
    exact absurd nothing (by decide)
  obtain ⟨⟨index, missed, orphaned⟩, member, rfl⟩ := listed
  have sums := whole _ member
  rw [total_seven] at sums
  cases sums
  exact ⟨_, trace, cut, rfl, run, once.asked, rows.mem_iff.mpr (List.mem_map_of_mem member)⟩

end FailedAttestations
end ValidatorDays
