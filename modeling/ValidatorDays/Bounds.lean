import ValidatorDays.Fault
/-! Ranges of whole numbers. Every stored amount, index and count has one, and
arithmetic that leaves it is a fault: nothing ever wraps. -/
namespace ValidatorDays

structure Bounds where
  least : Int
  greatest : Int
  deriving DecidableEq, Repr

namespace Bounds

instance : Membership Int Bounds := ⟨fun b n => b.least ≤ n ∧ n ≤ b.greatest⟩

instance (b : Bounds) (n : Int) : Decidable (n ∈ b) :=
  inferInstanceAs (Decidable (b.least ≤ n ∧ n ≤ b.greatest))

theorem mem_iff {b : Bounds} {n : Int} : n ∈ b ↔ b.least ≤ n ∧ n ≤ b.greatest := Iff.rfl

def int32 : Bounds := ⟨-2147483648, 2147483647⟩
def int64 : Bounds := ⟨-9223372036854775808, 9223372036854775807⟩
def int128 : Bounds :=
  ⟨-170141183460469231731687303715884105728, 170141183460469231731687303715884105727⟩
def byte : Bounds := ⟨0, 255⟩
def nat64 : Bounds := ⟨0, 18446744073709551615⟩

def check (b : Bounds) (n : Int) : Checked Int :=
  if n ∈ b then .ok n else .error .overflow

theorem check_of_mem {b : Bounds} {n : Int} (inside : n ∈ b) : b.check n = .ok n := if_pos inside

theorem check_eq_ok_iff {b : Bounds} {n m : Int} : b.check n = .ok m ↔ n ∈ b ∧ n = m := by
  unfold check
  split <;> simp_all

theorem int64_check {n : Int} (least : -9223372036854775808 ≤ n)
    (greatest : n ≤ 9223372036854775807) : int64.check n = .ok n := check_of_mem ⟨least, greatest⟩

theorem check_cases (b : Bounds) (n : Int) :
    b.check n = .ok n ∨ b.check n = .error .overflow := by
  unfold check
  split
  · exact .inl rfl
  · exact .inr rfl

/-- A number that is checked before anything is made of it. -/
theorem check_then {α : Type} (b : Bounds) (n : Int) (f : Int → α) :
    (do return f (← b.check n) : Checked α) = .error .overflow ∨
      (do return f (← b.check n) : Checked α) = .ok (f n) := by
  obtain fits | overflows := b.check_cases n
  · rw [fits]
    exact .inr rfl
  · rw [overflows]
    exact .inl rfl

theorem check_bind {α : Type} (b : Bounds) (n : Int) (f : Int → Checked α) :
    b.check n >>= f = if n ∈ b then f n else .error .overflow := by
  unfold check
  split <;> rfl

/-- Both ends count. Where the numbers between them fit, so does the distance. -/
theorem check_count {n : Int} (forward : 0 ≤ n) :
    (do int64.check ((← int64.check n) + 1)) = int64.check (n + 1) := by
  rw [check_bind]
  split
  next => rfl
  next outside =>
    refine (if_neg fun inside => outside ?_).symm
    simp only [mem_iff, int64] at inside ⊢
    omega

/-- A number that is made something of if it is in range. -/
theorem made_eq_ok_iff {α : Type} {b : Bounds} {n : Int} {f : Int → α} {a : α} :
    (do return f (← b.check n) : Checked α) = .ok a ↔ n ∈ b ∧ a = f n := by
  rw [bind_eq_ok]
  simp only [check_eq_ok_iff]
  constructor
  · rintro ⟨_, ⟨inside, rfl⟩, same⟩
    exact ⟨inside, (Except.ok.inj same).symm⟩
  · rintro ⟨inside, rfl⟩
    exact ⟨n, ⟨inside, rfl⟩, rfl⟩

def clamp (b : Bounds) (n : Int) : Int := max b.least (min n b.greatest)

/-- The number of the range that agrees with `n` in its low bits. -/
def wrap (b : Bounds) (n : Int) : Int :=
  (n - b.least) % (b.greatest - b.least + 1) + b.least

end Bounds

namespace Pieces

/-- A memory of 2^63 - 1 bytes holds so many pairs of 64 bit numbers. -/
def most : Int := 576460752303423487

/-- Room for the pieces of a range is made before the first piece is cut. -/
def reserve (full : Int) : Checked Unit := do
  if most < (← Bounds.int64.check (full + 1)) then throw .tooManyPieces

end Pieces
end ValidatorDays
