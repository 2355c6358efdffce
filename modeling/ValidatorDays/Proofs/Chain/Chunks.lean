import ValidatorDays.Chain.BlockRange

namespace ValidatorDays

instance : Membership BlockNumber BlockRange :=
  ⟨fun range number => range.first ≤ number ∧ number ≤ range.last⟩

namespace BlockRange

def Apart (range other : BlockRange) : Prop := ∀ number ∈ range, number ∉ other

theorem Apart.symm {range other : BlockRange} (apart : range.Apart other) : other.Apart range :=
  fun number inside insideToo => apart number insideToo inside

/-- The numbers from `first` up to `stop`, which is not one of them, lie in these ranges and no
others do. None lies in two of them. -/
structure Covers (ranges : List BlockRange) (first stop : Int) : Prop where
  apart : ranges.Pairwise Apart
  mem_iff : ∀ number : Int, (∃ range ∈ ranges, number ∈ range) ↔ first ≤ number ∧ number < stop

namespace Covers

variable {ranges others : List BlockRange} {first cut stop : Int}

theorem nil (first : Int) : Covers [] first first := by
  refine ⟨.nil, fun number => iff_of_false ?_ ?_⟩
  · rintro ⟨range, member, -⟩
    cases member
  · exact fun inside => absurd (Int.lt_of_le_of_lt inside.1 inside.2) (Int.lt_irrefl first)

theorem single (range : BlockRange) : Covers [range] range.first (range.last + 1) := by
  refine ⟨List.pairwise_singleton _ _, fun number => ?_⟩
  rw [Int.lt_add_one_iff]
  constructor
  · rintro ⟨_, member, inside⟩
    cases List.mem_singleton.mp member
    exact inside
  · exact fun inside => ⟨range, List.mem_singleton_self _, inside⟩

theorem append (low : Covers ranges first cut) (high : Covers others cut stop)
    (start : first ≤ cut) (ending : cut ≤ stop) : Covers (ranges ++ others) first stop := by
  constructor
  · apply List.pairwise_append.mpr
    refine ⟨low.apart, high.apart, fun range member other memberToo number inside insideToo => ?_⟩
    have below := ((low.mem_iff number).mp ⟨range, member, inside⟩).2
    have above := ((high.mem_iff number).mp ⟨other, memberToo, insideToo⟩).1
    exact absurd (Int.lt_of_le_of_lt above below) (Int.lt_irrefl cut)
  · intro number
    have either : (∃ range ∈ ranges ++ others, number ∈ range) ↔
        (∃ range ∈ ranges, number ∈ range) ∨ ∃ range ∈ others, number ∈ range := by
      simp only [List.mem_append, or_and_right, exists_or]
    rw [either, low.mem_iff, high.mem_iff]
    omega

theorem perm (covers : Covers ranges first stop) (same : ranges.Perm others) :
    Covers others first stop := by
  refine ⟨(same.pairwise_iff Apart.symm).mp covers.apart, fun number => ?_⟩
  rw [← covers.mem_iff]
  simp only [same.mem_iff]

end Covers

theorem covers_chunksFrom {first high : Int} {size : Nat} {chunks : List BlockRange}
    (upTo : first ≤ high + 1) (cut : chunksFrom first size high = .ok chunks) :
    Covers chunks first (high + 1) := by
  fun_induction chunksFrom first size high generalizing chunks with
  | case1 high inside ih =>
    obtain ⟨_, -, cut⟩ := bind_eq_ok.mp cut
    obtain ⟨_, -, cut⟩ := bind_eq_ok.mp cut
    obtain ⟨rest, later, cut⟩ := bind_eq_ok.mp cut
    cases cut
    have below := ih (by omega) later
    rw [Int.sub_add_cancel] at below
    have whole := below.append (.single ⟨max (high - size) first, high⟩) (Int.le_max_right _ _)
      (by simp only; omega)
    exact whole.perm List.perm_append_comm
  | case2 high none =>
    cases cut
    obtain rfl : first = high + 1 := by omega
    exact .nil _

theorem covers_descending {range : BlockRange} {size : Int} {chunks : List BlockRange}
    (forward : range.first ≤ range.last) (cut : range.descending size = .ok chunks) :
    Covers chunks range.first (range.last + 1) := by
  obtain ⟨_, -, pieces⟩ := bind_eq_ok.mp cut
  obtain ⟨_, -, pieces⟩ := bind_eq_ok.mp pieces
  exact covers_chunksFrom (Int.le_add_one forward) pieces

end BlockRange
end ValidatorDays
