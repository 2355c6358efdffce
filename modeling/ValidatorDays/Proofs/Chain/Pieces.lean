import Mathlib
import ValidatorDays.Chain.BlockRange
import ValidatorDays.Proofs.Chain.Tiles
/-! Ranges of epochs and of blocks, cut into pieces of one width. Room for all pieces is made before
the first one is cut, and for more than a memory holds none is made. Otherwise epochs are cut from
the first one up, until a number on the way leaves its 64 bits, and blocks from the last one down,
where none does. -/
namespace ValidatorDays

/-- A row of stretches that all have `width` numbers but the last, which may have fewer. -/
structure Strides (width start : Int) (row : List Stretch) (stop : Int) : Prop where
  tiles : Tiles width start row stop
  full : ∀ s ∈ row.dropLast, s.2 - s.1 = width

namespace Strides

variable {width start cut stop : Int} {rest : List Stretch}

theorem nil (start : Int) : Strides width start [] start := ⟨.nil start, nofun⟩

theorem cons (proper : start < cut) (narrow : cut - start ≤ width)
    (full : cut < stop → cut - start = width) (others : Strides width cut rest stop) :
    Strides width start ((start, cut) :: rest) stop := by
  refine ⟨.cons proper narrow others.tiles, fun s member => ?_⟩
  cases rest with
  | nil => cases member
  | cons next rest =>
    rw [List.dropLast_cons_cons] at member
    rcases List.mem_cons.mp member with rfl | later
    · -- Another stretch comes after this one, so the row does not stop yet.
      cases others.tiles with
      | cons more _ onward => exact full (Int.lt_of_lt_of_le more onward.le)
    · exact others.full s later

end Strides

/-- For how many pieces room is made. It is never too few, and one too many where the width divides
the range. -/
def Pieces.room (count width : Int) : Int := count / width + 1

theorem Pieces.reserve_eq (count width : Int) :
    reserve (count / width) =
      if room count width ∈ Bounds.int64 then
        if most < room count width then .error .tooManyPieces else .ok ()
      else .error .overflow := by
  rw [reserve, Bounds.check_bind]
  rfl

namespace EpochRange

variable {r : EpochRange}

theorem length_eq (forward : r.first ≤ r.last) :
    r.length = Bounds.int64.check (r.last.number - r.first.number + 1) :=
  Bounds.check_count (Int.sub_nonneg_of_le forward)

/-- The numbers by which the end of a piece is found, and the start of the next one. -/
def edges (width : Int) (piece : EpochRange) : List Int :=
  [piece.first.number + width, piece.last.number + 1]

/-- The strides are there even where they cannot be worked out. Only their edges decide that. -/
theorem strides_piecesFrom {last first : Int} (width : Nat) (upTo : first ≤ last + 1) :
    ∃ pieces, Strides (width + 1) first (pieces.map stretch) (last + 1) ∧
      piecesFrom last width first =
        if ∀ n ∈ pieces.flatMap (edges (width + 1)), n ∈ Bounds.int64 then .ok pieces
        else .error .overflow := by
  fun_induction piecesFrom last width first with
  | case1 first inside ih =>
    obtain ⟨rest, others, cut⟩ := ih (by omega)
    have proper : first < min (first + width) last + 1 := by omega
    have narrow : min (first + width) last + 1 - first ≤ width + 1 := by omega
    have full : min (first + width) last + 1 < last + 1 →
        min (first + width) last + 1 - first = width + 1 := by omega
    refine ⟨⟨⟨first⟩, ⟨min (first + width) last⟩⟩ :: rest, .cons proper narrow full others, ?_⟩
    rw [Bounds.check_bind, Bounds.check_bind, cut]
    simp only [List.flatMap_cons, edges, List.cons_append, List.nil_append, List.forall_mem_cons]
    rw [ite_and, ite_and]
    split_ifs <;> rfl
  | case2 first none =>
    obtain rfl : first = last + 1 := by omega
    exact ⟨[], .nil _, rfl⟩

theorem split_eq (forward : r.first ≤ r.last) (width : Int) :
    ∃ pieces : List EpochRange,
      Strides (max width 1) r.first.number (pieces.map stretch) (r.last.number + 1) ∧
      r.split width =
        if r.last.number - r.first.number + 1 ∈ Bounds.int64 then
          if Pieces.room (r.last.number - r.first.number + 1) (max width 1) ∈ Bounds.int64 then
            if Pieces.most < Pieces.room (r.last.number - r.first.number + 1) (max width 1) then
              .error .tooManyPieces
            else if ∀ n ∈ pieces.flatMap (edges (max width 1)), n ∈ Bounds.int64 then .ok pieces
            else .error .overflow
          else .error .overflow
        else .error .overflow := by
  obtain ⟨pieces, strides, cut⟩ :=
    strides_piecesFrom (max width 1 - 1).toNat (Int.le_add_one forward)
  have wide : (((max width 1 - 1).toNat : Int) + 1) = max width 1 := by omega
  rw [wide] at strides cut
  refine ⟨pieces, strides, ?_⟩
  rw [split, length_eq forward, Bounds.check_bind, Pieces.reserve_eq, cut]
  split_ifs <;> rfl

theorem tiles_split {width : Int} {pieces : List EpochRange} (forward : r.first ≤ r.last)
    (cut : r.split width = .ok pieces) :
    Tiles (max width 1) r.first.number (pieces.map stretch) (r.last.number + 1) := by
  obtain ⟨found, strides, outcome⟩ := split_eq forward width
  rw [cut] at outcome
  split_ifs at outcome
  cases outcome
  exact strides.tiles

/-- The numbers that are worked out for these pieces: how many epochs there are, for how many pieces
room is made, and the edges of each piece. -/
def worked (r : EpochRange) (width : Int) (pieces : List EpochRange) : List Int :=
  (r.last.number - r.first.number + 1) ::
    Pieces.room (r.last.number - r.first.number + 1) width :: pieces.flatMap (edges width)

/-- A range has strides of the width asked for, or of one epoch where less is asked for. It is split
into them, or a number that is worked out for them leaves its 64 bits, or there is no room for so
many. -/
theorem splits_in_strides (forward : r.first ≤ r.last) (width : Int) :
    ∃ pieces : List EpochRange,
      Strides (max width 1) r.first.number (pieces.map stretch) (r.last.number + 1) ∧
      (r.split width = .ok pieces ∧
          Pieces.room (r.last.number - r.first.number + 1) (max width 1) ≤ Pieces.most ∧
          (∀ n ∈ r.worked (max width 1) pieces, n ∈ Bounds.int64) ∨
        r.split width = .error .overflow ∧
          (∃ n ∈ r.worked (max width 1) pieces, n ∉ Bounds.int64) ∨
        r.split width = .error .tooManyPieces ∧
          Pieces.most < Pieces.room (r.last.number - r.first.number + 1) (max width 1)) := by
  obtain ⟨pieces, strides, outcome⟩ := split_eq forward width
  refine ⟨pieces, strides, ?_⟩
  rw [outcome]
  split_ifs with counted made many inside
  · exact .inr (.inr ⟨rfl, many⟩)
  · refine .inl ⟨rfl, Int.not_lt.mp many, ?_⟩
    exact List.forall_mem_cons.mpr ⟨counted, List.forall_mem_cons.mpr ⟨made, inside⟩⟩
  · obtain ⟨n, edge, outside⟩ := not_forall₂.mp inside
    exact .inr (.inl ⟨rfl, n, .tail _ (.tail _ edge), outside⟩)
  · exact .inr (.inl ⟨rfl, _, .tail _ (.head _), made⟩)
  · exact .inr (.inl ⟨rfl, _, .head _, counted⟩)

/-- With one epoch more the number after the last piece would leave its 64 bits, and so would the
end of the second piece with a width of four. -/
theorem splits_in_strides_last_epochs :
    split ⟨⟨9223372036854775801⟩, ⟨9223372036854775806⟩⟩ 3 =
      .ok [⟨⟨9223372036854775801⟩, ⟨9223372036854775803⟩⟩,
        ⟨⟨9223372036854775804⟩, ⟨9223372036854775806⟩⟩] ∧
    Strides 3 9223372036854775801
      [(9223372036854775801, 9223372036854775804), (9223372036854775804, 9223372036854775807)]
      9223372036854775807 := by
  have cut : split ⟨⟨9223372036854775801⟩, ⟨9223372036854775806⟩⟩ 3 =
      .ok [⟨⟨9223372036854775801⟩, ⟨9223372036854775803⟩⟩,
        ⟨⟨9223372036854775804⟩, ⟨9223372036854775806⟩⟩] := by cbv
  obtain ⟨pieces, strides, outcome⟩ :=
    splits_in_strides (r := ⟨⟨9223372036854775801⟩, ⟨9223372036854775806⟩⟩) (by decide) 3
  rw [cut] at outcome
  rcases outcome with ⟨same, -⟩ | ⟨failed, -⟩ | ⟨failed, -⟩
  · cases same
    exact ⟨cut, strides⟩
  · cases failed
  · cases failed

/-- There is no room for the first 2^60 + 1 epochs apart, although all numbers are small enough. -/
theorem no_room_for_pieces : ¬ ∃ pieces : List EpochRange,
    Strides 1 0 (pieces.map stretch) 1152921504606846977 ∧
    (split ⟨⟨0⟩, ⟨1152921504606846976⟩⟩ 1 = .ok pieces ∨
      (∃ fault, split ⟨⟨0⟩, ⟨1152921504606846976⟩⟩ 1 = .error fault) ∧
        ∃ n ∈ worked ⟨⟨0⟩, ⟨1152921504606846976⟩⟩ 1 pieces, n ∉ Bounds.int64) := by
  have full : split ⟨⟨0⟩, ⟨1152921504606846976⟩⟩ 1 = .error .tooManyPieces := rfl
  rintro ⟨pieces, strides, cut | ⟨-, n, member, outside⟩⟩
  · cases full.symm.trans cut
  · apply outside
    rcases List.mem_cons.mp member with rfl | member
    · decide
    rcases List.mem_cons.mp member with rfl | member
    · decide
    obtain ⟨piece, known, edge⟩ := List.mem_flatMap.mp member
    obtain ⟨start, proper, stop⟩ := strides.tiles.within (List.mem_map_of_mem known)
    simp only [stretch, edges, List.mem_cons, List.not_mem_nil, or_false] at start proper stop edge
    simp only [Bounds.mem_iff, Bounds.int64]
    omega

end EpochRange

namespace BlockRange

/-- The blocks of the range from the last one down. -/
def downward (r : BlockRange) : List Int :=
  (List.range (r.last + 1 - r.first).toNat).map fun k : Nat => r.last - k

/-- How far below the top the last block lies, and the first block that is below all of them. -/
def depths (top : Int) (r : BlockRange) : Stretch := (top - r.last, top + 1 - r.first)

theorem downward_eq (top : Int) (r : BlockRange) :
    r.downward = (r.depths top).numbers.map (top - ·) := by
  have long : (r.depths top).2 - (r.depths top).1 = r.last + 1 - r.first := by
    simp only [depths]
    omega
  rw [downward, Stretch.numbers, long, List.map_map]
  refine List.map_congr_left fun k _ => ?_
  simp only [Function.comp_apply, depths]
  omega

theorem flatMap_downward {width first last : Int} {chunks : List BlockRange}
    (tiles : Tiles width 0 (chunks.map (depths last)) (last + 1 - first)) :
    chunks.flatMap downward = downward ⟨first, last⟩ := by
  have whole : depths last ⟨first, last⟩ = (0, last + 1 - first) := by rw [depths, Int.sub_self]
  calc chunks.flatMap downward
      = chunks.flatMap fun chunk => (chunk.depths last).numbers.map (last - ·) :=
        List.flatMap_congr fun chunk _ => downward_eq last chunk
    _ = ((chunks.map (depths last)).flatMap Stretch.numbers).map (last - ·) := by
        rw [List.flatMap_map, List.map_flatMap]
    _ = downward ⟨first, last⟩ := by rw [tiles.numbers, ← whole, ← downward_eq]

/-- Down to a block that is not below the first of all, nothing leaves its 64 bits. -/
theorem strides_chunksFrom {first high : Int} (size : Nat) (start : 0 ≤ first)
    (upTo : first ≤ high + 1) (known : high ≤ 9223372036854775807)
    (narrow : (size : Int) + 1 ≤ 9223372036854775807) (top : Int) :
    ∃ chunks, chunksFrom first size high = .ok chunks ∧
      Strides (size + 1) (top - high) (chunks.map (depths top)) (top + 1 - first) := by
  fun_induction chunksFrom first size high with
  | case1 high inside ih =>
    obtain ⟨rest, cut, others⟩ := ih (by omega) (by omega)
    have next : top - (max (high - size) first - 1) = top + 1 - max (high - size) first := by omega
    rw [next] at others
    have proper : top - high < top + 1 - max (high - size) first := by omega
    have fits : top + 1 - max (high - size) first - (top - high) ≤ size + 1 := by omega
    have full : top + 1 - max (high - size) first < top + 1 - first →
        top + 1 - max (high - size) first - (top - high) = size + 1 := by omega
    refine ⟨⟨max (high - size) first, high⟩ :: rest, ?_, .cons proper fits full others⟩
    rw [Bounds.int64_check (by omega) (by omega), Bounds.int64_check (by omega) (by omega), cut]
    rfl
  | case2 high none =>
    have nothing : top + 1 - first = top - high := by omega
    rw [nothing]
    exact ⟨[], rfl, .nil _⟩

/-- Counted from its last block down, a range has strides of the size asked for, or of one block
where less is asked for. One after the other they hold all its blocks in this order. It is cut into
them, unless there is no room for so many. -/
theorem descends_in_strides (first last size : Int) (start : 0 ≤ first) (forward : first ≤ last)
    (known : last < Bounds.int64.greatest - 1) (narrow : size ∈ Bounds.int64) :
    ∃ chunks : List BlockRange,
      Strides (max size 1) 0 (chunks.map (depths last)) (last + 1 - first) ∧
      chunks.flatMap downward = downward ⟨first, last⟩ ∧
      descending ⟨first, last⟩ size =
        if Pieces.most < Pieces.room (last - first + 1) (max size 1) then .error .tooManyPieces
        else .ok chunks := by
  obtain ⟨-, narrow⟩ := narrow
  simp only [Bounds.int64] at known narrow
  have wide : (((max size 1 - 1).toNat : Int) + 1) = max size 1 := by omega
  obtain ⟨chunks, cut, strides⟩ := strides_chunksFrom (max size 1 - 1).toNat start
    (Int.le_add_one forward) (by omega) (by omega) last
  rw [wide, Int.sub_self] at strides
  refine ⟨chunks, strides, flatMap_downward strides.tiles, ?_⟩
  have counted : count ⟨first, last⟩ = .ok (last - first + 1) :=
    (Bounds.check_count (Int.sub_nonneg_of_le forward)).trans
      (Bounds.int64_check (by omega) (by omega))
  have made : Pieces.room (last - first + 1) (max size 1) ∈ Bounds.int64 := by
    have least : 0 ≤ (last - first + 1) / max size 1 := Int.ediv_nonneg (by omega) (by omega)
    have smaller := Int.ediv_le_self (max size 1) (show 0 ≤ last - first + 1 by omega)
    simp only [Pieces.room, Bounds.mem_iff, Bounds.int64]
    omega
  rw [descending, counted]
  change (Pieces.reserve _ >>= fun _ => chunksFrom _ _ _) = _
  rw [Pieces.reserve_eq, if_pos made, cut]
  split <;> rfl

/-- The last chunk goes down to the block of genesis, and no further. -/
theorem descends_in_strides_to_genesis :
    descending ⟨0, 9⟩ 4 = .ok [⟨6, 9⟩, ⟨2, 5⟩, ⟨0, 1⟩] ∧
    Strides 4 0 [(0, 4), (4, 8), (8, 10)] 10 ∧
    [⟨6, 9⟩, ⟨2, 5⟩, ⟨0, 1⟩].flatMap downward = [9, 8, 7, 6, 5, 4, 3, 2, 1, 0] := by
  have cut : descending ⟨0, 9⟩ 4 = .ok [⟨6, 9⟩, ⟨2, 5⟩, ⟨0, 1⟩] := by cbv
  obtain ⟨chunks, strides, blocks, outcome⟩ :=
    descends_in_strides 0 9 4 (by decide) (by decide) (by decide) (by decide)
  rw [cut, if_neg (by decide)] at outcome
  cases outcome
  exact ⟨cut, strides, blocks⟩

/-- There is no room for the first 2^60 + 1 blocks in chunks of one each. -/
theorem no_room_for_chunks :
    ((0 : Int) ≤ 0 ∧ (0 : Int) ≤ 1152921504606846976 ∧
      1152921504606846976 < Bounds.int64.greatest - 1 ∧ 1 ∈ Bounds.int64) ∧
    ∀ chunks, descending ⟨0, 1152921504606846976⟩ 1 ≠ .ok chunks := by
  have full : descending ⟨0, 1152921504606846976⟩ 1 = .error .tooManyPieces := rfl
  refine ⟨by decide, fun chunks cut => ?_⟩
  cases full.symm.trans cut

end BlockRange
end ValidatorDays
