import Mathlib
import ValidatorDays.Proofs.Stage.Together
import ValidatorDays.Proofs.Tally.Entries
/-! What proposers earn with their blocks. The fees of all blocks are found again with the
proposers, each of whom has one row. The order of the blocks matters only where sums pass through
numbers that are out of range. -/
namespace ValidatorDays

open Program

namespace ExecutionRewards

def Known (canonical : List CanonicalBlock) (block : BlockReward) : Prop :=
  ∃ c ∈ canonical, c.number = block.number

/-- Of several canonical blocks with the number, the last one counts. -/
def proposerOf? (canonical : List CanonicalBlock) (block : BlockReward) : Option ValidatorIndex :=
  (canonical.reverse.find? (·.number = block.number)).map (·.proposer)

def proposedBy (canonical : List CanonicalBlock) (p : ValidatorIndex)
    (blocks : List BlockReward) : List BlockReward :=
  blocks.filter (proposerOf? canonical · = some p)

def feesOf (blocks : List BlockReward) : Int := (blocks.map fun b => b.fees.count).sum

/-- The bribe for a block, or its fees if there is none. -/
def mevFor (bribes : Bribes) (block : BlockReward) : Int :=
  match bribes.reverse.find? (·.1 = block.hash) with
  | some bribe => bribe.2.count
  | none => block.fees.count

def mevOf (bribes : Bribes) (blocks : List BlockReward) : Int := (blocks.map (mevFor bribes)).sum

def earnings (canonical : List CanonicalBlock) (bribes : Bribes) (p : ValidatorIndex)
    (blocks : List BlockReward) : ExecutionRewards :=
  ⟨⟨feesOf (proposedBy canonical p blocks)⟩, ⟨mevOf bribes (proposedBy canonical p blocks)⟩⟩

def Inside (r : ExecutionRewards) : Prop :=
  r.fees.count ∈ Bounds.int128 ∧ r.mev.count ∈ Bounds.int128

instance (r : ExecutionRewards) : Decidable r.Inside := inferInstanceAs (Decidable (_ ∧ _))

/-- No sum that is formed on the way is out of range. -/
def Fits (canonical : List CanonicalBlock) (bribes : Bribes) (blocks : List BlockReward) : Prop :=
  ∀ before, before <+: blocks → ∀ p, (earnings canonical bribes p before).Inside

section Lookup

variable {canonical : List CanonicalBlock} {bribes : Bribes} {block : BlockReward}

theorem known_iff : Known canonical block ↔ ∃ p, proposerOf? canonical block = some p := by
  rw [← Option.isSome_iff_exists, proposerOf?, Option.isSome_map, List.find?_isSome]
  simp [Known]

theorem lastFor?_number : lastFor? block.number (canonical.map fun c => (c.number, c.proposer)) =
    proposerOf? canonical block := by
  rw [lastFor?_eq_find?, ← List.map_reverse, List.find?_map, Option.map_map]
  rfl

theorem lastFor?_bribe : ((lastFor? block.hash bribes).getD block.fees).count =
    mevFor bribes block := by
  rw [lastFor?_eq_find?, mevFor]
  cases bribes.reverse.find? (·.1 = block.hash) <;> rfl

end Lookup

section Sums

variable {canonical : List CanonicalBlock} {bribes : Bribes} {block : BlockReward}
  {blocks : List BlockReward} {p : ValidatorIndex}

theorem proposedBy_own (own : proposerOf? canonical block = some p) :
    proposedBy canonical p (blocks ++ [block]) = proposedBy canonical p blocks ++ [block] := by
  simp [proposedBy, List.filter_append, own]

theorem proposedBy_other (other : proposerOf? canonical block ≠ some p) :
    proposedBy canonical p (blocks ++ [block]) = proposedBy canonical p blocks := by
  simp [proposedBy, List.filter_append, other]

theorem earnings_own (own : proposerOf? canonical block = some p) :
    earnings canonical bribes p (blocks ++ [block]) =
      ⟨⟨feesOf (proposedBy canonical p blocks) + block.fees.count⟩,
        ⟨mevOf bribes (proposedBy canonical p blocks) + mevFor bribes block⟩⟩ := by
  simp [earnings, proposedBy_own own, feesOf, mevOf]

theorem earnings_other (other : proposerOf? canonical block ≠ some p) :
    earnings canonical bribes p (blocks ++ [block]) = earnings canonical bribes p blocks := by
  rw [earnings, earnings, proposedBy_other other]

theorem earnings_append (before after : List BlockReward) :
    earnings canonical bribes p (before ++ after) =
      ⟨⟨(earnings canonical bribes p before).fees.count +
          (earnings canonical bribes p after).fees.count⟩,
        ⟨(earnings canonical bribes p before).mev.count +
          (earnings canonical bribes p after).mev.count⟩⟩ := by
  simp [earnings, proposedBy, feesOf, mevOf]

theorem Fits.of_prefix {before : List BlockReward} (fits : Fits canonical bribes blocks)
    (within : before <+: blocks) : Fits canonical bribes before :=
  fun earlier begins => fits earlier (begins.trans within)

theorem fits_append (own : proposerOf? canonical block = some p) :
    Fits canonical bribes (blocks ++ [block]) ↔ Fits canonical bribes blocks ∧
      (earnings canonical bribes p (blocks ++ [block])).Inside := by
  constructor
  · exact fun fits => ⟨fits.of_prefix (List.prefix_append _ _), fits _ List.prefix_rfl p⟩
  · rintro ⟨fits, inside⟩ before within q
    rcases List.prefix_concat_iff.mp within with rfl | earlier
    · by_cases same : proposerOf? canonical block = some q
      · cases own.symm.trans same
        exact inside
      · rw [earnings_other same]
        exact fits _ List.prefix_rfl q
    · exact fits before earlier q

end Sums

/-- What a tally holds for a proposer: nothing if it has none of the blocks. -/
def held (canonical : List CanonicalBlock) (bribes : Bribes) (p : ValidatorIndex)
    (blocks : List BlockReward) : Option ExecutionRewards :=
  if proposedBy canonical p blocks = [] then none else some (earnings canonical bribes p blocks)

section Step

variable {canonical : List CanonicalBlock} {bribes : Bribes} {block : BlockReward}
  {blocks : List BlockReward} {p : ValidatorIndex} {t : Tally ExecutionRewards}

theorem held_getD : (held canonical bribes p blocks).getD ⟨.zero, .zero⟩ =
    earnings canonical bribes p blocks := by
  rw [held]
  split
  · rename_i absent
    rw [earnings, absent]
    rfl
  · rfl

theorem addBlock_held (bribes : Bribes) (blocks : List BlockReward)
    (own : proposerOf? canonical block = some p) :
    addBlock block bribes (held canonical bribes p blocks) =
      if (earnings canonical bribes p (blocks ++ [block])).Inside then
        .ok (earnings canonical bribes p (blocks ++ [block])) else .error Fault.weiAddition := by
  rw [addBlock, held_getD, earnings_own own, ← lastFor?_bribe]
  simp only [earnings, Inside, Amount.add, Denomination.bounds, Denomination.additionFault]
  by_cases fees : feesOf (proposedBy canonical p blocks) + block.fees.count ∈ Bounds.int128
  · by_cases mev : mevOf bribes (proposedBy canonical p blocks) +
        ((lastFor? block.hash bribes).getD block.fees).count ∈ Bounds.int128
    · simp only [fees, mev, and_self, if_true]
      rfl
    · simp only [fees, mev, and_false, if_true, if_false]
      rfl
  · simp only [fees, false_and, if_false]
    rfl

/-- Everything the tally holds is what the blocks before have come to. -/
structure Holds (canonical : List CanonicalBlock) (bribes : Bribes) (blocks : List BlockReward)
    (t : Tally ExecutionRewards) : Prop where
  ascending : t.Ascending
  entries : ∀ p, t.lookup p = held canonical bribes p blocks

theorem byProposer_failed {failure : Failure} (others : List BlockReward)
    (failed : byProposer canonical blocks bribes = .error failure) :
    byProposer canonical (blocks ++ others) bribes = .error failure := by
  unfold byProposer at failed ⊢
  rw [List.foldlM_append, failed]
  rfl

theorem byProposer_unknown (summed : byProposer canonical blocks bribes = .ok t)
    (unknown : ¬ Known canonical block) : byProposer canonical (blocks ++ [block]) bribes =
      .error (.stage (unknownBlock block.number)) := by
  have nobody : proposerOf? canonical block = none := by
    rw [Option.eq_none_iff_forall_ne_some]
    exact fun p own => unknown (known_iff.mpr ⟨p, own⟩)
  unfold byProposer at summed ⊢
  rw [List.foldlM_append, summed]
  simp only [Bind.bind, Except.bind, List.foldlM_cons, lastFor?_number, nobody]
  rfl

theorem byProposer_known (summed : byProposer canonical blocks bribes = .ok t)
    (own : proposerOf? canonical block = some p) :
    byProposer canonical (blocks ++ [block]) bribes =
      .ofChecked (Tally.change p (addBlock block bribes) t) := by
  unfold byProposer at summed ⊢
  rw [List.foldlM_append, summed]
  simp only [Bind.bind, Except.bind, List.foldlM_cons, lastFor?_number, own]
  cases Tally.change p (addBlock block bribes) t <;> rfl

/-- Another block of a proposer either fits, and everything else stays as it was, or is refused. -/
theorem Holds.step (holds : Holds canonical bribes blocks t)
    (own : proposerOf? canonical block = some p) :
    ((earnings canonical bribes p (blocks ++ [block])).Inside →
      ∃ u, Tally.change p (addBlock block bribes) t = .ok u ∧
        Holds canonical bribes (blocks ++ [block]) u) ∧
    (¬ (earnings canonical bribes p (blocks ++ [block])).Inside →
      Tally.change p (addBlock block bribes) t = .error .weiAddition) := by
  have added := addBlock_held bribes blocks own
  rw [← holds.entries] at added
  constructor
  · intro inside
    rw [if_pos inside] at added
    obtain ⟨u, changed, ascending, entries⟩ := Tally.change_ok holds.ascending added
    refine ⟨u, changed, ascending, fun q => ?_⟩
    rw [entries]
    by_cases same : q = p
    · subst same
      rw [if_pos rfl, held, if_neg (by simp [proposedBy_own own])]
    · have other : proposerOf? canonical block ≠ some q := by
        rw [own]
        exact fun wrong => same (Option.some.inj wrong).symm
      rw [if_neg same, holds.entries, held, held, proposedBy_other other, earnings_other other]
  · intro outside
    rw [if_neg outside] at added
    exact Tally.change_error holds.ascending added

end Step

section Run

variable {canonical : List CanonicalBlock} {bribes : Bribes} {blocks : List BlockReward}

/-- Blocks that are all known are summed up just if the sums fit. -/
theorem byProposer_of_known (known : ∀ block ∈ blocks, Known canonical block) :
    (Fits canonical bribes blocks →
      ∃ t, byProposer canonical blocks bribes = .ok t ∧ Holds canonical bribes blocks t) ∧
    (¬ Fits canonical bribes blocks →
      byProposer canonical blocks bribes = .error (.fault .weiAddition)) := by
  induction blocks using List.reverseRecOn with
  | nil =>
    refine ⟨fun _ => ⟨[], rfl, List.Pairwise.nil, fun _ => rfl⟩, fun unfit => absurd ?_ unfit⟩
    intro before within p
    rw [List.prefix_nil.mp within]
    exact (by decide : (⟨⟨0⟩, ⟨0⟩⟩ : ExecutionRewards).Inside)
  | append_singleton blocks block ih =>
    obtain ⟨sums, overflows⟩ := ih fun b member => known b (List.mem_append_left _ member)
    obtain ⟨p, own⟩ := known_iff.mp (known block (by simp))
    rw [fits_append own]
    constructor
    · rintro ⟨fits, inside⟩
      obtain ⟨t, summed, holds⟩ := sums fits
      obtain ⟨u, changed, still⟩ := (holds.step own).1 inside
      rw [byProposer_known summed own, changed]
      exact ⟨u, rfl, still⟩
    · intro unfit
      by_cases fits : Fits canonical bribes blocks
      · obtain ⟨t, summed, holds⟩ := sums fits
        rw [byProposer_known summed own, (holds.step own).2 fun inside => unfit ⟨fits, inside⟩]
        rfl
      · exact byProposer_failed [block] (overflows fits)

/-- The first block that is not known is what the rewards fail by. -/
theorem byProposer_of_unknown {before after : List BlockReward} {block : BlockReward}
    (known : ∀ block ∈ before, Known canonical block) (unknown : ¬ Known canonical block)
    (fits : Fits canonical bribes before) : byProposer canonical (before ++ block :: after) bribes =
      .error (.stage (unknownBlock block.number)) := by
  obtain ⟨t, summed, -⟩ := (byProposer_of_known known).1 fits
  rw [List.append_cons]
  exact byProposer_failed after (byProposer_unknown summed unknown)

theorem known_of_ok {t : Tally ExecutionRewards}
    (summed : byProposer canonical blocks bribes = .ok t) :
    (∀ block ∈ blocks, Known canonical block) ∧ Fits canonical bribes blocks := by
  have known : ∀ block ∈ blocks, Known canonical block := by
    induction blocks using List.reverseRecOn generalizing t with
    | nil => exact List.forall_mem_nil _
    | append_singleton blocks block ih =>
      cases earlier : byProposer canonical blocks bribes with
      | error failure => cases (byProposer_failed [block] earlier).symm.trans summed
      | ok u =>
        refine List.forall_mem_append.mpr ⟨ih earlier, List.forall_mem_singleton.mpr ?_⟩
        by_contra unknown
        cases (byProposer_unknown earlier unknown).symm.trans summed
  refine ⟨known, ?_⟩
  by_contra unfit
  cases ((byProposer_of_known known).2 unfit).symm.trans summed

theorem holds_of_ok {t : Tally ExecutionRewards}
    (summed : byProposer canonical blocks bribes = .ok t) : Holds canonical bribes blocks t := by
  obtain ⟨known, fits⟩ := known_of_ok summed
  obtain ⟨u, same, holds⟩ := (byProposer_of_known known).1 fits
  cases summed.symm.trans same
  exact holds

end Run

section Entries

variable {canonical : List CanonicalBlock} {bribes : Bribes} {blocks : List BlockReward}
  {t : Tally ExecutionRewards}

theorem Holds.mem_iff (holds : Holds canonical bribes blocks t) {p : ValidatorIndex}
    {r : ExecutionRewards} : (p, r) ∈ t ↔
      (∃ block ∈ blocks, proposerOf? canonical block = some p) ∧
        r = earnings canonical bribes p blocks := by
  have proposes : proposedBy canonical p blocks ≠ [] ↔
      ∃ block ∈ blocks, proposerOf? canonical block = some p := by
    simp [proposedBy, List.filter_eq_nil_iff]
  rw [holds.ascending.mem_iff, holds.entries, held, ← proposes]
  by_cases noProposal : proposedBy canonical p blocks = []
  · simp [noProposal]
  · simp [noProposal, eq_comm]

theorem sum_proposedBy {proposers : List ValidatorIndex} (distinct : proposers.Nodup)
    (covers : ∀ block ∈ blocks, ∃ p ∈ proposers, proposerOf? canonical block = some p) :
    (proposers.map fun p => feesOf (proposedBy canonical p blocks)).sum = feesOf blocks := by
  induction blocks with
  | nil => simp [proposedBy, feesOf]
  | cons block others ih =>
    obtain ⟨⟨q, listed, own⟩, rest⟩ := List.forall_mem_cons.mp covers
    have split (p : ValidatorIndex) : feesOf (proposedBy canonical p (block :: others)) =
        (if q = p then block.fees.count else 0) + feesOf (proposedBy canonical p others) := by
      by_cases same : q = p <;> simp [proposedBy, feesOf, own, same]
    have once : (proposers.map fun p => if q = p then block.fees.count else 0).sum =
        block.fees.count := by
      rw [← List.sum_toFinset _ distinct, Finset.sum_ite_eq, if_pos (List.mem_toFinset.mpr listed)]
    simp only [split]
    rw [List.sum_map_add, once, ih rest]
    rfl

theorem Holds.conserves (holds : Holds canonical bribes blocks t)
    (known : ∀ block ∈ blocks, Known canonical block) :
    (t.map fun e => e.2.fees.count).sum = feesOf blocks := by
  have fees : ∀ e ∈ t, e.2.fees.count = feesOf (proposedBy canonical e.1 blocks) := by
    intro e member
    rw [(holds.mem_iff.mp member).2]
    rfl
  have covers : ∀ block ∈ blocks, ∃ p ∈ t.map Prod.fst, proposerOf? canonical block = some p := by
    intro block member
    obtain ⟨p, own⟩ := known_iff.mp (known block member)
    exact ⟨p, List.mem_map_of_mem (holds.mem_iff.mpr ⟨⟨block, member, own⟩, rfl⟩), own⟩
  rw [List.map_congr_left fees, ← sum_proposedBy holds.ascending.nodup covers, List.map_map]
  rfl

end Entries

section Order

variable {canonical : List CanonicalBlock} {bribes : Bribes} {blocks others : List BlockReward}

def Nonneg (bribes : Bribes) (blocks : List BlockReward) : Prop :=
  ∀ block ∈ blocks, 0 ≤ block.fees.count ∧ 0 ≤ mevFor bribes block

theorem earnings_nonneg (canonical : List CanonicalBlock) (nonneg : Nonneg bribes blocks)
    (p : ValidatorIndex) :
    0 ≤ (earnings canonical bribes p blocks).fees.count ∧
      0 ≤ (earnings canonical bribes p blocks).mev.count := by
  have own : ∀ block ∈ proposedBy canonical p blocks, block ∈ blocks :=
    fun block member => List.mem_of_mem_filter member
  constructor
  · apply List.sum_nonneg
    intro n member
    obtain ⟨block, inside, rfl⟩ := List.mem_map.mp member
    exact (nonneg block (own block inside)).1
  · apply List.sum_nonneg
    intro n member
    obtain ⟨block, inside, rfl⟩ := List.mem_map.mp member
    exact (nonneg block (own block inside)).2

theorem fits_of_nonneg (nonneg : Nonneg bribes blocks) : Fits canonical bribes blocks ↔
    ∀ p, (earnings canonical bribes p blocks).Inside := by
  constructor
  · exact fun fits p => fits _ List.prefix_rfl p
  · rintro inside before ⟨after, rfl⟩ p
    obtain ⟨early, late⟩ := List.forall_mem_append.mp nonneg
    obtain ⟨fees, mev⟩ := earnings_nonneg canonical early p
    obtain ⟨feesToo, mevToo⟩ := earnings_nonneg canonical late p
    have whole := inside p
    rw [earnings_append] at whole
    simp only [Inside, Bounds.mem_iff, Bounds.int128] at whole ⊢
    omega

theorem proposedBy_perm (canonical : List CanonicalBlock) (perm : others.Perm blocks)
    (p : ValidatorIndex) :
    (proposedBy canonical p others).Perm (proposedBy canonical p blocks) := perm.filter _

theorem earnings_perm (perm : others.Perm blocks) (p : ValidatorIndex) :
    earnings canonical bribes p others = earnings canonical bribes p blocks := by
  have own := proposedBy_perm canonical perm p
  rw [earnings, earnings, feesOf, feesOf, mevOf, mevOf, (own.map _).sum_eq, (own.map _).sum_eq]

theorem held_perm (perm : others.Perm blocks) (p : ValidatorIndex) :
    held canonical bribes p others = held canonical bribes p blocks := by
  have own := proposedBy_perm canonical perm p
  rw [held, held, earnings_perm perm]
  by_cases noProposal : proposedBy canonical p blocks = []
  · rw [if_pos noProposal, if_pos (List.perm_nil.mp (noProposal ▸ own))]
  · rw [if_neg noProposal, if_neg]
    rintro wrong
    rw [wrong] at own
    exact noProposal (List.nil_perm.mp own)

theorem byProposer_perm (known : ∀ block ∈ blocks, Known canonical block)
    (nonneg : Nonneg bribes blocks) (perm : others.Perm blocks) :
    byProposer canonical others bribes = byProposer canonical blocks bribes := by
  have knownToo : ∀ block ∈ others, Known canonical block :=
    fun block member => known block (perm.mem_iff.mp member)
  have nonnegToo : Nonneg bribes others :=
    fun block member => nonneg block (perm.mem_iff.mp member)
  have same : Fits canonical bribes others ↔ Fits canonical bribes blocks := by
    simp only [fits_of_nonneg nonneg, fits_of_nonneg nonnegToo, earnings_perm perm]
  by_cases fits : Fits canonical bribes blocks
  · obtain ⟨t, summed, holds⟩ := (byProposer_of_known known).1 fits
    obtain ⟨u, summedToo, holdsToo⟩ := (byProposer_of_known knownToo).1 (same.mpr fits)
    rw [summed, summedToo, holdsToo.ascending.ext holds.ascending fun p => ?_]
    rw [holds.entries, holdsToo.entries, held_perm perm]
  · rw [(byProposer_of_known known).2 fits,
      (byProposer_of_known knownToo).2 fun wrong => fits (same.mp wrong)]

end Order

structure SumsUp (canonical : List CanonicalBlock) (bribes : Bribes) (blocks : List BlockReward) :
    Prop where
  succeeds : (∃ t, byProposer canonical blocks bribes = .ok t) ↔
    (∀ block ∈ blocks, Known canonical block) ∧ Fits canonical bribes blocks
  entries : ∀ t, byProposer canonical blocks bribes = .ok t → (t.map Prod.fst).Nodup ∧
    ∀ p r, (p, r) ∈ t ↔ (∃ block ∈ blocks, proposerOf? canonical block = some p) ∧
      r = earnings canonical bribes p blocks
  conserved : ∀ t, byProposer canonical blocks bribes = .ok t →
    (t.map fun e => e.2.fees.count).sum = feesOf blocks
  unknown : ∀ before block after, blocks = before ++ block :: after →
    (∀ block ∈ before, Known canonical block) → ¬ Known canonical block →
      Fits canonical bribes before →
        byProposer canonical blocks bribes = .error (.stage (unknownBlock block.number))
  overflows : (∀ block ∈ blocks, Known canonical block) → ¬ Fits canonical bribes blocks →
    byProposer canonical blocks bribes = .error (.fault .weiAddition)
  anyOrder : (∀ block ∈ blocks, Known canonical block) → Nonneg bribes blocks →
    ∀ others, others.Perm blocks →
      byProposer canonical others bribes = byProposer canonical blocks bribes
  fitsInTheEnd : Nonneg bribes blocks → (Fits canonical bribes blocks ↔
    ∀ p, (earnings canonical bribes p blocks).Inside)

theorem sumsUp (canonical : List CanonicalBlock) (bribes : Bribes) (blocks : List BlockReward) :
    SumsUp canonical bribes blocks where
  succeeds := by
    constructor
    · rintro ⟨t, summed⟩
      exact known_of_ok summed
    · rintro ⟨known, fits⟩
      obtain ⟨t, summed, -⟩ := (byProposer_of_known known).1 fits
      exact ⟨t, summed⟩
  entries := fun t summed =>
    ⟨(holds_of_ok summed).ascending.nodup, fun p r => (holds_of_ok summed).mem_iff⟩
  conserved := fun t summed => (holds_of_ok summed).conserves (known_of_ok summed).1
  unknown := by
    rintro before block after rfl known unknown fits
    exact byProposer_of_unknown known unknown fits
  overflows := fun known => (byProposer_of_known known).2
  anyOrder := fun known nonneg others perm => byProposer_perm known nonneg perm
  fitsInTheEnd := fits_of_nonneg

structure RowsApart (day : Day) (trace : List Event) : Prop where
  rows : ∀ row ∈ trace.flatMap Event.rows, ∃ p r, row = ExecutionRewards.row day p r
  distinct : ((trace.flatMap Event.rows).map List.head?).Nodup

theorem rowsApart {settings : Settings} {day : Day} {trace : List Event} {result : Outcome Unit}
    (run : Runs (stage settings day) trace result) : RowsApart day trace := by
  obtain empty | ⟨early, late, written, batches, rfl, planned, begins⟩ :=
    Bundle.rows_written .executionRewards run
  · constructor
    · rw [empty]
      exact List.forall_mem_nil _
    · rw [empty]
      exact List.nodup_nil
  · cases planned with
    | @executionRewards canonical blocks bribes rewards _ read told bid earned plan =>
      have apart : ((ExecutionRewards.rows day rewards).map List.head?).Nodup := by
        have validators : (ExecutionRewards.rows day rewards).map List.head? =
            (rewards.map Prod.fst).map fun p => some (SqlValue.int4 p) := by
          rw [ExecutionRewards.rows, List.map_map, List.map_map]
          rfl
        rw [validators]
        apply (holds_of_ok earned).ascending.nodup.map
        exact fun p q same => SqlValue.int4.inj (Option.some.inj same)
      constructor
      · intro row member
        obtain ⟨e, -, same⟩ := List.mem_map.mp (begins.subset member)
        exact ⟨e.1, e.2, same.symm⟩
      · exact (begins.sublist.map _).nodup apart

/-- Proposers earn what their blocks add up to, as long as all blocks are known and the sums fit. No
run writes two rows for one of them. -/
theorem byProposer_sums (canonical : List CanonicalBlock) (bribes : Bribes)
    (blocks : List BlockReward) : SumsUp canonical bribes blocks ∧
      ∀ settings day trace result, Runs (stage settings day) trace result →
        RowsApart day trace :=
  ⟨sumsUp canonical bribes blocks, fun _ _ _ _ run => rowsApart run⟩

def threeCanonical : List CanonicalBlock := [⟨⟨1⟩, 100, 7⟩, ⟨⟨2⟩, 101, 7⟩, ⟨⟨3⟩, 102, 8⟩]

def threeBlocks : List BlockReward :=
  [⟨100, "0xhash100", ⟨1000⟩⟩, ⟨101, "0xhash101", ⟨2000⟩⟩, ⟨102, "0xhash102", ⟨500⟩⟩]

def oneBribe : Bribes := [("0xhash101", ⟨90000⟩)]

/-- Everything is exported, and two validators have proposed three blocks. -/
def rewarding : (r : Request) → r.Answer
  | .query (.canonicalBlocks _) => .ok threeCanonical
  | .indexer (.blockRewards _) => .ok threeBlocks
  | .relays _ => .ok oneBribe
  | r => Books.calmAnswer 10 (fun _ => some ⟨true, fun _ => true⟩) r

/-- A bribe takes the place of the fees of its block. -/
theorem byProposer_sums_three : ∃ trace,
    byProposer threeCanonical threeBlocks oneBribe =
      .ok [(7, ⟨⟨3000⟩, ⟨91000⟩⟩), (8, ⟨⟨500⟩, ⟨500⟩⟩)] ∧ feesOf threeBlocks = 3500 ∧
    byProposer threeCanonical threeBlocks.reverse oneBribe =
      byProposer threeCanonical threeBlocks oneBribe ∧
    Runs (stage Settings.standard ⟨1⟩) trace (.ok ()) ∧ RowsApart ⟨1⟩ trace ∧
      (trace.flatMap Event.rows).length = 2 := by
  have run := runs_observe (steady rewarding) (stage Settings.standard ⟨1⟩) ()
  have well : ((stage Settings.standard ⟨1⟩).observe (steady rewarding) ()).2 = .ok () := by cbv
  have two : (((stage Settings.standard ⟨1⟩).observe (steady rewarding) ()).1.flatMap
      Event.rows).length = 2 := by cbv
  rw [well] at run
  obtain ⟨sums, apart⟩ := byProposer_sums threeCanonical oneBribe threeBlocks
  have summed : byProposer threeCanonical threeBlocks oneBribe =
    .ok [(7, ⟨⟨3000⟩, ⟨91000⟩⟩), (8, ⟨⟨500⟩, ⟨500⟩⟩)] := rfl
  have known := (sums.succeeds.mp ⟨_, summed⟩).1
  have nonneg : Nonneg oneBribe threeBlocks := by
    unfold Nonneg
    decide
  exact ⟨_, summed, (sums.conserved _ summed).symm.trans rfl,
    sums.anyOrder known nonneg _ (List.reverse_perm _), run, apart _ _ _ _ run, two⟩

end ExecutionRewards
end ValidatorDays
