import ValidatorDays.Text.Integer

namespace ValidatorDays

theorem digit?_of_isDigit {c : Char} (digit : c.isDigit = true) :
    digit? c = some (c.toNat - '0'.toNat) := by
  obtain ⟨least, greatest⟩ := Char.isDigit_iff_toNat.mp digit
  exact if_pos ⟨least, greatest⟩

theorem digit?_eq_some_iff {c : Char} {d : Nat} :
    digit? c = some d ↔ c.isDigit = true ∧ d = c.toNat - '0'.toNat := by
  constructor
  · intro found
    unfold digit? at found
    split at found
    · rename_i between
      exact ⟨Char.isDigit_iff_toNat.mpr between, (Option.some.inj found).symm⟩
    · cases found
  · rintro ⟨digit, rfl⟩
    exact digit?_of_isDigit digit

theorem isDigit_toDigits {n : Nat} : ∀ c ∈ Nat.toDigits 10 n, c.isDigit = true :=
  fun _ member => Nat.isDigit_of_mem_toDigits (by decide) (by decide) member

theorem le_ofDigitChars (digits : List Char) (n : Nat) : n ≤ Nat.ofDigitChars 10 digits n := by
  induction digits generalizing n with
  | nil => exact Nat.le_refl n
  | cons c rest ih =>
    rw [Nat.ofDigitChars_cons]
    exact Nat.le_trans (by omega) (ih _)

/-- A sign or none, at least one digit, and the number that they say. -/
inductive Numeral : List Char → Int → Prop where
  | plain {digits : List Char} (nonempty : digits ≠ []) (all : ∀ c ∈ digits, c.isDigit = true) :
      Numeral digits (Nat.ofDigitChars 10 digits 0)
  | plus {digits : List Char} (nonempty : digits ≠ []) (all : ∀ c ∈ digits, c.isDigit = true) :
      Numeral ('+' :: digits) (Nat.ofDigitChars 10 digits 0)
  | minus {digits : List Char} (nonempty : digits ≠ []) (all : ∀ c ∈ digits, c.isDigit = true) :
      Numeral ('-' :: digits) (-Nat.ofDigitChars 10 digits 0)

namespace Bounds

variable {b : Bounds} {digits cs : List Char} {n : Nat} {m : Int}

theorem readUp_digits (all : ∀ c ∈ digits, c.isDigit = true) (zero : 0 ∈ b) (n : Nat)
    (fits : (Nat.ofDigitChars 10 digits n : Int) ∈ b) :
    b.readUp n digits = .ok (Nat.ofDigitChars 10 digits n) := by
  induction digits generalizing n with
  | nil => rfl
  | cons c rest ih =>
    obtain ⟨first, others⟩ := List.forall_mem_cons.mp all
    rw [Nat.ofDigitChars_cons] at fits ⊢
    have grows := le_ofDigitChars rest (10 * n + (c.toNat - '0'.toNat))
    have inside : (10 * n + ((c.toNat - '0'.toNat : Nat) : Int)) ∈ b := by
      rw [mem_iff] at zero fits ⊢
      omega
    simp only [readUp, digit?_of_isDigit first]
    rw [if_pos inside]
    exact ih others _ fits

theorem readUp_ok (inside : (n : Int) ∈ b) (read : b.readUp n digits = .ok m) :
    (∀ c ∈ digits, c.isDigit = true) ∧ m = Nat.ofDigitChars 10 digits n ∧ m ∈ b := by
  induction digits generalizing n with
  | nil =>
    cases read
    exact ⟨nofun, rfl, inside⟩
  | cons c rest ih =>
    rw [readUp] at read
    cases found : digit? c with
    | none =>
      rw [found] at read
      cases read
    | some d =>
      obtain ⟨digit, rfl⟩ := digit?_eq_some_iff.mp found
      simp only [found] at read
      split at read
      · rename_i fits
        obtain ⟨others, value, fits⟩ := ih (n := 10 * n + (c.toNat - '0'.toNat)) fits read
        exact ⟨List.forall_mem_cons.mpr ⟨digit, others⟩, value, fits⟩
      · cases read

/-- The range seen from below zero. -/
def mirror (b : Bounds) : Bounds := ⟨-b.greatest, -b.least⟩

theorem mem_mirror : m ∈ b.mirror ↔ -m ∈ b := by
  simp only [mem_iff, mirror]
  omega

theorem readDown_eq_ok_iff (n : Int) :
    b.readDown (-n) digits = .ok m ↔ b.mirror.readUp n digits = .ok (-m) := by
  induction digits generalizing n with
  | nil =>
    simp only [readDown, readUp, Except.ok.injEq]
    omega
  | cons c rest ih =>
    cases found : digit? c with
    | none => simp [readDown, readUp, found]
    | some d =>
      have same : 10 * -n - d = -(10 * n + d) := by omega
      simp only [readDown, readUp, found, same, mem_mirror]
      split
      · exact ih _
      · simp

theorem readDown_digits (all : ∀ c ∈ digits, c.isDigit = true) (zero : 0 ∈ b) (n : Nat)
    (fits : (-(Nat.ofDigitChars 10 digits n : Int)) ∈ b) :
    b.readDown (-n) digits = .ok (-(Nat.ofDigitChars 10 digits n : Int)) := by
  rw [readDown_eq_ok_iff, Int.neg_neg]
  exact readUp_digits all (mem_mirror.mpr zero) n (mem_mirror.mpr fits)

theorem readDown_ok (inside : -(n : Int) ∈ b) (read : b.readDown (-n) digits = .ok m) :
    (∀ c ∈ digits, c.isDigit = true) ∧ m = -Nat.ofDigitChars 10 digits n ∧ m ∈ b := by
  obtain ⟨all, value, fits⟩ := readUp_ok (mem_mirror.mpr inside) ((readDown_eq_ok_iff n).mp read)
  rw [mem_mirror, Int.neg_neg] at fits
  exact ⟨all, by omega, fits⟩

theorem readChars_plus (nonempty : digits ≠ []) :
    b.readChars ('+' :: digits) = b.readUp 0 digits := by
  cases digits with
  | nil => exact absurd rfl nonempty
  | cons c rest => rfl

theorem readChars_minus (nonempty : digits ≠ []) : b.readChars ('-' :: digits) =
    if b.least < 0 then b.readDown 0 digits else .error .invalidDigit := by
  cases digits with
  | nil => exact absurd rfl nonempty
  | cons c rest => rfl

theorem readChars_digits (all : ∀ c ∈ digits, c.isDigit = true) (nonempty : digits ≠ []) :
    b.readChars digits = b.readUp 0 digits := by
  cases digits with
  | nil => exact absurd rfl nonempty
  | cons c rest =>
    have digit := all c List.mem_cons_self
    have noPlus : c ≠ '+' := by
      rintro rfl
      exact absurd digit (by decide)
    have noMinus : c ≠ '-' := by
      rintro rfl
      exact absurd digit (by decide)
    simp [readChars, noPlus, noMinus]

/-- What is read is a numeral of the range, and each of them is read. -/
theorem readChars_eq_ok_iff (zero : 0 ∈ b) (below : b.least < 0) :
    b.readChars cs = .ok m ↔ Numeral cs m ∧ m ∈ b := by
  constructor
  · intro read
    unfold readChars at read
    split at read
    · cases read
    · cases read
    · cases read
    · rename_i digits nonempty
      obtain ⟨all, rfl, inside⟩ := readUp_ok (n := 0) zero read
      exact ⟨.plus (nonempty ·) all, inside⟩
    · rename_i digits nonempty
      rw [if_pos below] at read
      obtain ⟨all, rfl, inside⟩ := readDown_ok (n := 0) zero read
      exact ⟨.minus (nonempty ·) all, inside⟩
    · rename_i nonempty _ _ _ _
      obtain ⟨all, rfl, inside⟩ := readUp_ok (n := 0) zero read
      exact ⟨.plain nonempty all, inside⟩
  · rintro ⟨numeral, inside⟩
    cases numeral with
    | plain nonempty all =>
      rw [readChars_digits all nonempty]
      exact readUp_digits all zero 0 inside
    | plus nonempty all =>
      rw [readChars_plus nonempty]
      exact readUp_digits all zero 0 inside
    | minus nonempty all =>
      rw [readChars_minus nonempty, if_pos below]
      exact readDown_digits all zero 0 inside

theorem read_intText {n : Int} (inside : n ∈ b) (zero : 0 ∈ b) : b.read (intText n) = .ok n := by
  have all : ∀ c ∈ Nat.toDigits 10 n.natAbs, c.isDigit = true := isDigit_toDigits
  have nonempty : Nat.toDigits 10 n.natAbs ≠ [] := Nat.toDigits_ne_nil
  have value := Nat.ofDigitChars_ten_toDigits (n := n.natAbs)
  rw [read, intText, String.toList_ofList, intChars]
  generalize Nat.toDigits 10 n.natAbs = digits at *
  split
  · rename_i negative
    have size : -(Nat.ofDigitChars 10 digits 0 : Int) = n := by omega
    have below : b.least < 0 := by
      rw [mem_iff] at inside
      omega
    rw [readChars_minus nonempty, if_pos below]
    exact size ▸ readDown_digits all zero 0 (size ▸ inside)
  · have size : (Nat.ofDigitChars 10 digits 0 : Int) = n := by omega
    rw [readChars_digits all nonempty]
    exact size ▸ readUp_digits all zero 0 (size ▸ inside)

end Bounds

theorem intText_injective : Function.Injective intText := by
  intro m n same
  obtain ⟨b, zero, first, second⟩ : ∃ b : Bounds, 0 ∈ b ∧ m ∈ b ∧ n ∈ b := by
    refine ⟨⟨min (min m n) 0, max (max m n) 0⟩, ?_⟩
    simp only [Bounds.mem_iff]
    omega
  have read := Bounds.read_intText first zero
  rw [same, Bounds.read_intText second zero] at read
  exact (Except.ok.inj read).symm

theorem mem_intChars {n : Int} {c : Char} (member : c ∈ intChars n) :
    c = '-' ∨ c.isDigit = true := by
  unfold intChars at member
  split at member
  · exact (List.mem_cons.mp member).imp id (isDigit_toDigits c)
  · exact .inr (isDigit_toDigits c member)

theorem intChars_ne_nil (n : Int) : intChars n ≠ [] := by
  unfold intChars
  split
  · exact List.cons_ne_nil _ _
  · exact Nat.toDigits_ne_nil

end ValidatorDays
