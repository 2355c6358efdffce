import ValidatorDays.Chain.Slot

namespace ValidatorDays

/-- When it begins, whether or not there is a date for that. -/
def Slot.start (s : Slot) : Instant :=
  ⟨genesis.nanoseconds + s.number * secondsPerSlot * Instant.nanosecondsPerSecond⟩

def Epoch.start (e : Epoch) : Instant := Slot.start ⟨e.number * slotsPerEpoch⟩

theorem Slot.start_seconds (s : Slot) : s.start.seconds = 1606824023 + s.number * 12 := by
  simp only [start, genesis, Instant.seconds, Instant.ofSeconds, Instant.nanosecondsPerSecond,
    secondsPerSlot]
  omega

theorem Instant.later_eq_ok_iff {t later : Instant} {seconds : Int} : t.later seconds = .ok later ↔
    (seconds ∈ span ∧ t.seconds + seconds ∈ calendar) ∧
      later = ⟨t.nanoseconds + seconds * nanosecondsPerSecond⟩ := by
  unfold Instant.later
  split
  next inside =>
    exact ⟨fun same => ⟨inside, (Except.ok.inj same).symm⟩, fun ⟨_, same⟩ => congrArg _ same.symm⟩
  next outside => exact ⟨nofun, fun ⟨inside, _⟩ => (outside inside).elim⟩

theorem Slot.time_eq_ok_iff {s : Slot} {t : Instant} :
    s.time = .ok t ↔ s.start.seconds ∈ Instant.calendar ∧ t = s.start := by
  have begun : genesis.seconds = 1606824023 := by decide
  unfold time
  simp only [bind_eq_ok, Bounds.check_eq_ok_iff, Instant.later_eq_ok_iff]
  constructor
  · rintro ⟨_, ⟨-, rfl⟩, ⟨-, dated⟩, rfl⟩
    refine ⟨?_, rfl⟩
    rw [start_seconds, ← begun]
    exact dated
  · rintro ⟨dated, rfl⟩
    rw [start_seconds] at dated
    refine ⟨_, ⟨?_, rfl⟩, ⟨?_, ?_⟩, rfl⟩
    all_goals
      simp only [Bounds.mem_iff, Bounds.int64, Instant.span, Instant.calendar, begun,
        secondsPerSlot] at dated ⊢
      omega

theorem Slot.plus_eq_ok_iff {s t : Slot} {n : Int} :
    s.plus n = .ok t ↔ s.number + n ∈ Bounds.int64 ∧ t = ⟨s.number + n⟩ := Bounds.made_eq_ok_iff

theorem Epoch.plus_eq_ok_iff {e f : Epoch} {n : Int} :
    e.plus n = .ok f ↔ e.number + n ∈ Bounds.int64 ∧ f = ⟨e.number + n⟩ := Bounds.made_eq_ok_iff

theorem Epoch.firstSlot_eq_ok_iff {e : Epoch} {s : Slot} : e.firstSlot = .ok s ↔
    e.number * slotsPerEpoch ∈ Bounds.int64 ∧ s = ⟨e.number * slotsPerEpoch⟩ :=
  Bounds.made_eq_ok_iff

theorem Epoch.time_eq_ok_iff {e : Epoch} {t : Instant} :
    e.time = .ok t ↔ e.start.seconds ∈ Instant.calendar ∧ t = e.start := by
  unfold time
  simp only [bind_eq_ok, firstSlot_eq_ok_iff, Slot.time_eq_ok_iff]
  constructor
  · rintro ⟨_, ⟨-, rfl⟩, begun⟩
    exact begun
  · rintro ⟨dated, rfl⟩
    refine ⟨_, ⟨?_, rfl⟩, dated, rfl⟩
    rw [start, Slot.start_seconds] at dated
    simp only [Bounds.mem_iff, Bounds.int64, Instant.calendar] at dated ⊢
    omega

end ValidatorDays
