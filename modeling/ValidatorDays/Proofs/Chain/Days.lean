import ValidatorDays.Chain.Day

namespace ValidatorDays

theorem Day.lt_iff {a b : Day} : a < b ↔ a.number < b.number := Iff.rfl

theorem Day.le_iff {a b : Day} : a ≤ b ↔ a.number ≤ b.number := Iff.rfl

theorem Day.number_inj {a b : Day} : a.number = b.number ↔ a = b :=
  ⟨fun same => by cases a; cases b; cases same; rfl, congrArg number⟩

theorem EpochRange.slots_eq {first last : Int} (least : 0 ≤ first) (near : first ≤ 1000000000000)
    (leastToo : 0 ≤ last) (nearToo : last ≤ 1000000000000) :
    EpochRange.slots ⟨⟨first⟩, ⟨last⟩⟩ = .ok (⟨first * 32⟩, ⟨(last + 1) * 32⟩) := by
  simp only [slots, Epoch.firstSlot, Epoch.plus, slotsPerEpoch]
  rw [Bounds.int64_check (by omega) (by omega), Bounds.int64_check (by omega) (by omega)]
  have stop : Epoch.firstSlot ⟨last + 1⟩ = .ok ⟨(last + 1) * 32⟩ :=
    congrArg (Slot.mk <$> ·) (Bounds.int64_check (n := (last + 1) * 32) (by omega) (by omega))
  change (do return (Slot.mk (first * 32), ← Epoch.firstSlot ⟨last + 1⟩)) = _
  rw [stop]
  rfl

theorem Day.next_found {day : Day} (inside : day.number + 1 ∈ Bounds.int32) :
    day.next = .ok ⟨day.number + 1⟩ := congrArg (Except.map mk) (Bounds.check_of_mem inside)

variable {day : Day} (valid : day.number ∈ Bounds.int32)
include valid

theorem Day.epochs_split : day.epochs.split epochsPerDay = .ok [day.epochs] := by
  obtain ⟨least, greatest⟩ := valid
  simp only [Bounds.int32] at least greatest
  have length : day.epochs.length = .ok epochsPerDay := by
    simp only [EpochRange.length, Day.epochs, epochsPerDay]
    rw [Bounds.int64_check (by omega) (by omega)]
    refine (Bounds.int64_check (by omega) (by omega)).trans ?_
    congr 1
    omega
  have pieces : EpochRange.piecesFrom day.epochs.last.number 224 day.epochs.first.number =
      .ok [day.epochs] := by
    simp only [Day.epochs, epochsPerDay]
    rw [EpochRange.piecesFrom, if_pos (by omega), Int.min_eq_left (by omega)]
    rw [Bounds.int64_check (by omega) (by omega), Bounds.int64_check (by omega) (by omega)]
    rw [EpochRange.piecesFrom, if_neg (by omega)]
    rfl
  rw [EpochRange.split, length]
  exact pieces

theorem Day.shifted_slots : ∃ range slots,
    day.epochs.shiftedBack = .ok range ∧ range.slots = .ok slots := by
  obtain ⟨least, greatest⟩ := valid
  simp only [Bounds.int32] at least greatest
  have shifted : day.epochs.shiftedBack =
      .ok ⟨⟨max (day.number * 225 - 1) 0⟩, ⟨max (day.number * 225 + 223) 0⟩⟩ := by
    simp only [EpochRange.shiftedBack, Day.epochs, epochsPerDay]
    rw [Bounds.int64_check (by omega) (by omega), Bounds.int64_check (by omega) (by omega)]
    change Except.ok (EpochRange.mk ⟨_⟩ ⟨_⟩) = _
    congr 3
    omega
  exact ⟨_, _, shifted, EpochRange.slots_eq (by omega) (by omega) (by omega) (by omega)⟩

theorem Day.previous_found (notBefore : Day.genesis ≤ day) :
    day.previous = .ok ⟨max (day.number - 1) 0⟩ := by
  obtain ⟨least, greatest⟩ := valid
  simp only [Bounds.int32] at least greatest
  have start : 0 ≤ day.number := notBefore
  have inside : day.number - 1 ∈ Bounds.int32 :=
    ⟨show -2147483648 ≤ _ by omega, show _ ≤ 2147483647 by omega⟩
  exact congrArg (Except.map fun n => Day.mk (max n 0)) (Bounds.check_of_mem inside)

end ValidatorDays
