import Mathlib.Data.List.Basic
import Mathlib.Data.List.TakeDrop
import ValidatorDays.Json.Reader
import ValidatorDays.Json.Writer
import ValidatorDays.Proofs.Text.Numerals

namespace ValidatorDays.Json

theorem hexFour?_control : ∀ n < 32,
    hexFour? '0' '0' (lowerHexDigit (n / 16)) (lowerHexDigit (n % 16)) = some n := by
  decide

theorem readChar_plain {c : Char} (rest : List Char) (slash : c ≠ '\\') (shown : ¬ c.toNat < 32) :
    readChar (c :: rest) = some (some c, rest) := by
  unfold readChar
  split
  · next same => exact absurd (List.cons.inj same).1 slash
  · next same => exact absurd (List.cons.inj same).1 slash
  · next same =>
    obtain ⟨rfl, rfl⟩ := List.cons.inj same
    exact if_neg (not_or.mpr ⟨shown, slash⟩)
  · next same => cases same

theorem readChar_control {n : Nat} (small : n < 32) (rest : List Char) :
    readChar ("\\u00".toList ++ [lowerHexDigit (n / 16), lowerHexDigit (n % 16)] ++ rest) =
      some (some (Char.ofNat n), rest) := by
  have notHigh : isHighHalf n = false := by
    simp [isHighHalf]
    omega
  have notLow : isLowHalf n = false := by
    simp [isLowHalf]
    omega
  have escape : "\\u00".toList = ['\\', 'u', '0', '0'] := rfl
  simp only [escape, List.cons_append, List.nil_append, readChar, hexFour?_control n small,
    Option.bind_eq_bind, Option.bind_some, notHigh, notLow, Bool.false_eq_true, if_false]

theorem readChar_writeChar (c : Char) (rest : List Char) :
    readChar (writeChar c ++ rest) = some (some c, rest) := by
  unfold writeChar
  split
  · next same => subst same; rfl
  split
  · next same => subst same; rfl
  split
  · next same => subst same; rfl
  split
  · next same => subst same; rfl
  split
  · next same => subst same; rfl
  split
  · next same => subst same; rfl
  split
  · next same => subst same; rfl
  split
  · next small => rw [readChar_control small, Char.ofNat_toNat]
  · next slash _ _ _ _ _ shown => exact readChar_plain rest slash shown

theorem writeChar_ne_quote (c : Char) (cs rest : List Char) : writeChar c ++ cs ≠ '"' :: rest := by
  intro same
  have read := readChar_writeChar c cs
  rw [same] at read
  obtain ⟨rfl, rfl⟩ : '"' = c ∧ rest = cs := by simpa [readChar] using read
  exact absurd (List.cons.inj same).1 (by decide)

theorem readText_writeChar (fuel : Nat) (done : List Char) (halves : Bool) (c : Char)
    (cs : List Char) : readText (fuel + 1) done halves (writeChar c ++ cs) =
      readText fuel (c :: done) halves cs := by
  rw [readText, readChar_writeChar]
  exact writeChar_ne_quote c cs

theorem readText_written {s : List Char} {fuel : Nat} (enough : s.length < fuel)
    (done rest : List Char) : readText fuel done false (s.flatMap writeChar ++ '"' :: rest) =
      some (.text (String.ofList (done.reverse ++ s)), rest) := by
  induction s generalizing fuel done with
  | nil =>
    obtain ⟨fuel, rfl⟩ := Nat.exists_eq_add_of_lt enough
    simp [readText]
  | cons c s ih =>
    cases fuel with
    | zero => cases enough
    | succ fuel =>
      have read := ih (Nat.lt_of_succ_lt_succ enough) (c :: done)
      rw [List.flatMap_cons, List.append_assoc, readText_writeChar, read]
      simp

theorem length_le_written (s : List Char) : s.length ≤ (s.flatMap writeChar).length := by
  induction s with
  | nil => exact Nat.le_refl 0
  | cons c s ih =>
    have nonempty : writeChar c ≠ [] :=
      fun empty => writeChar_ne_quote c ['"'] [] (by rw [empty]; rfl)
    have long := List.length_pos_iff.mpr nonempty
    simp only [List.flatMap_cons, List.length_append, List.length_cons]
    omega

theorem readText_writeText (s rest : List Char) :
    readText ((s.flatMap writeChar ++ '"' :: rest).length + 1) [] false
      (s.flatMap writeChar ++ '"' :: rest) = some (.text (String.ofList s), rest) := by
  have long := length_le_written s
  apply readText_written
  simp only [List.length_append]
  omega

/-- What comes after a value: the end, or a mark that no number goes on with. -/
inductive EndsNumber : List Char → Prop where
  | nil : EndsNumber []
  | comma (cs : List Char) : EndsNumber (',' :: cs)
  | bracket (cs : List Char) : EndsNumber (']' :: cs)
  | brace (cs : List Char) : EndsNumber ('\x7d' :: cs)

theorem isDigit_eq (c : Char) : isDigit c = c.isDigit := by
  rw [Bool.eq_iff_iff, isDigit, Option.isSome_iff_exists]
  simp only [digit?_eq_some_iff]
  exact ⟨fun ⟨_, digit, _⟩ => digit, fun digit => ⟨_, digit, rfl⟩⟩

theorem digitsNat_eq {digits : List Char} (all : ∀ c ∈ digits, c.isDigit = true) :
    digitsNat digits = Nat.ofDigitChars 10 digits 0 := by
  unfold digitsNat
  generalize 0 = n
  induction digits generalizing n with
  | nil => rfl
  | cons c rest ih =>
    obtain ⟨digit, others⟩ := List.forall_mem_cons.mp all
    rw [List.foldl_cons, Nat.ofDigitChars_cons, digitValue, digit?_of_isDigit digit]
    exact ih others _

theorem toDigits_head {n : Nat} (zero : (Nat.toDigits 10 n).head? = some '0') : n = 0 := by
  induction n using Nat.strongRecOn with
  | ind n ih =>
    rw [Nat.toDigits_eq_if (by decide)] at zero
    split at zero
    next small =>
      have digit : ∀ d < 10, [Nat.digitChar d].head? = some '0' → d = 0 := by decide
      exact digit n small zero
    next large =>
      rw [List.head?_append_of_ne_nil _ Nat.toDigits_ne_nil] at zero
      have noTens := ih (n / 10) (by omega) zero
      omega

theorem span_digits {digits rest : List Char} (all : ∀ c ∈ digits, c.isDigit = true)
    (closes : EndsNumber rest) : (digits ++ rest).span isDigit = (digits, rest) := by
  have own : ∀ c ∈ digits, isDigit c = true := fun c member => (isDigit_eq c).trans (all c member)
  have stop : rest.takeWhile isDigit = [] ∧ rest.dropWhile isDigit = rest := by
    cases closes <;> exact ⟨rfl, rfl⟩
  rw [List.span_eq_takeWhile_dropWhile, List.takeWhile_append_of_pos own,
    List.dropWhile_append_of_pos own, stop.1, stop.2, List.append_nil]

theorem readUnsigned_digits {digits rest : List Char} (all : ∀ c ∈ digits, c.isDigit = true)
    (first : digits ≠ []) (lead : digits.head? = some '0' → digits = ['0'])
    (closes : EndsNumber rest)
    (negative : Bool) :
    readUnsigned negative (digits ++ rest) = some (ofDigits negative digits [] none, rest) := by
  have fine : ¬ (digits = [] ∨ digits.head? = some '0' ∧ digits ≠ ['0']) := by
    rintro (empty | ⟨zero, other⟩)
    · exact first empty
    · exact other (lead zero)
  have fraction : readFraction rest = some ([], rest) := by
    cases closes <;> rfl
  have exponent : readExponent rest = some (none, rest) := by
    cases closes <;> rfl
  simp only [readUnsigned, span_digits all closes, if_neg fine, fraction, exponent,
    Option.bind_eq_bind, Option.bind_some, Option.pure_def]

theorem ofDigits_intChars {n : Int} (inside : n ∈ wholeNumbers) :
    ofDigits (decide (n < 0)) (Nat.toDigits 10 n.natAbs) [] none = .int n := by
  have size : digitsNat (Nat.toDigits 10 n.natAbs) = n.natAbs :=
    (digitsNat_eq isDigit_toDigits).trans Nat.ofDigitChars_ten_toDigits
  have value : (if decide (n < 0) = true then -(n.natAbs : Int) else n.natAbs) = n := by
    simp only [decide_eq_true_iff]
    omega
  have nonzero : decide (n < 0) = true → n ≠ 0 := by
    simp only [decide_eq_true_iff]
    omega
  simp only [ofDigits, size, value]
  exact if_pos ⟨trivial, trivial, inside, nonzero⟩

theorem readNumber_intChars {n : Int} (inside : n ∈ wholeNumbers) {rest : List Char}
    (closes : EndsNumber rest) : readNumber (intChars n ++ rest) = some (.int n, rest) := by
  have lead (zero : (Nat.toDigits 10 n.natAbs).head? = some '0') :
      Nat.toDigits 10 n.natAbs = ['0'] := by
    rw [toDigits_head zero]
    rfl
  have read := readUnsigned_digits isDigit_toDigits Nat.toDigits_ne_nil lead closes (decide (n < 0))
  rw [ofDigits_intChars inside] at read
  unfold intChars
  split
  · next negative => rwa [decide_eq_true negative] at read
  · next positive =>
    rw [decide_eq_false positive] at read
    rw [readNumber]
    · exact read
    · intro cs same
      obtain ⟨c, others, digits⟩ : ∃ c others, Nat.toDigits 10 n.natAbs = c :: others :=
        List.exists_cons_of_ne_nil Nat.toDigits_ne_nil
      have digit := isDigit_toDigits c (digits ▸ List.mem_cons_self)
      rw [digits] at same
      rw [(List.cons.inj same).1] at digit
      exact absurd digit (by decide)

theorem skipBlank_mark {c : Char} (mark : isBlank c = false) (rest : List Char) :
    skipBlank (c :: rest) = c :: rest := by
  rw [skipBlank, List.dropWhile_cons_of_neg]
  exact Bool.eq_false_iff.mp mark

section Number

variable {c : Char} (number : c = '-' ∨ c.isDigit = true)

include number

theorem number_ne {other : Char} (unlike : ¬ (other = '-' ∨ other.isDigit = true)) : c ≠ other :=
  fun same => unlike (same ▸ number)

theorem number_shown : isBlank c = false := by
  have space : c ≠ ' ' := number_ne number (by decide)
  have line : c ≠ '\n' := number_ne number (by decide)
  have tab : c ≠ '\t' := number_ne number (by decide)
  have back : c ≠ '\r' := number_ne number (by decide)
  simp [isBlank, space, line, tab, back]

theorem readValue_number {value : Json} {rest after : List Char}
    (read : readNumber (c :: rest) = some (value, after)) (fuel : Nat) :
    readValue (fuel + 1) (c :: rest) = (value, some after) := by
  have unlike (other : Char) (apart : ¬ (other = '-' ∨ other.isDigit = true)) {cs : List Char}
      (same : c :: rest = other :: cs) : False :=
    number_ne number apart (List.cons.inj same).1
  simp only [readValue, skipBlank_mark (number_shown number)]
  split
  · next same => exact (unlike 'n' (by decide) same).elim
  · next same => exact (unlike 't' (by decide) same).elim
  · next same => exact (unlike 'f' (by decide) same).elim
  · next same => exact (unlike '"' (by decide) same).elim
  · next same => exact (unlike '[' (by decide) same).elim
  · next same => exact (unlike '\x7b' (by decide) same).elim
  · simp only [read]

end Number

theorem intChars_eq_cons (n : Int) :
    ∃ c rest, intChars n = c :: rest ∧ (c = '-' ∨ c.isDigit = true) := by
  cases written : intChars n with
  | nil => exact absurd written (intChars_ne_nil n)
  | cons c rest => exact ⟨c, rest, rfl, mem_intChars (written ▸ List.mem_cons_self)⟩

end ValidatorDays.Json
