import Mathlib.Data.String.Basic
import ValidatorDays.Environment

namespace ValidatorDays.Environment

open String

variable {n : Nat} {cs tail : List Char} {env other : Environment} {key value : String}

theorem fromByte_zero (cs : List Char) : fromByte 0 cs = some cs := by
  cases cs <;> rfl

theorem fromByte_append (n : Nat) (front cs : List Char) :
    fromByte (utf8Len front + n) (front ++ cs) = fromByte n cs := by
  induction front with
  | nil => rw [utf8Len_nil, Nat.zero_add, List.nil_append]
  | cons c front ih =>
    have positive := c.utf8Size_pos
    rw [List.cons_append, fromByte, utf8Len_cons, if_neg (by omega), if_pos (by omega), ← ih]
    congr 1
    omega

theorem fromByte_eq_some_iff :
    fromByte n cs = some tail ↔ ∃ front, cs = front ++ tail ∧ utf8Len front = n := by
  constructor
  · intro found
    induction cs generalizing n with
    | nil =>
      rw [fromByte] at found
      split at found
      next empty => exact ⟨[], Option.some.inj found, empty.symm⟩
      next => cases found
    | cons c rest ih =>
      rw [fromByte] at found
      split at found
      next empty => exact ⟨[], Option.some.inj found, empty.symm⟩
      next =>
        split at found
        next fits =>
          obtain ⟨front, rfl, size⟩ := ih found
          exact ⟨c :: front, rfl, by rw [utf8Len_cons, size, Nat.sub_add_cancel fits]⟩
        next => cases found
  · rintro ⟨front, rfl, rfl⟩
    exact (fromByte_append 0 front tail).trans (fromByte_zero tail)

theorem length_le_utf8Len (cs : List Char) : cs.length ≤ utf8Len cs := by
  induction cs with
  | nil => exact Nat.le_refl 0
  | cons c rest ih =>
    rw [utf8Len_cons, List.length_cons]
    exact Nat.add_le_add ih c.utf8Size_pos

/-- The end of a text that is shown of a secret: its last four bytes, or all of fewer. -/
def IsShownEnd (value : String) (tail : List Char) : Prop :=
  tail <:+ value.toList ∧ utf8Len tail = min 4 value.utf8ByteSize

theorem fromByte_isShownEnd_iff :
    fromByte (value.utf8ByteSize - 4) value.toList = some tail ↔ IsShownEnd value tail := by
  rw [fromByte_eq_some_iff, IsShownEnd, ← utf8Len_toList]
  constructor
  · rintro ⟨front, whole, size⟩
    refine ⟨⟨front, whole.symm⟩, ?_⟩
    rw [whole, utf8Len_append] at size ⊢
    omega
  · rintro ⟨⟨front, whole⟩, size⟩
    refine ⟨front, whole.symm, ?_⟩
    rw [← whole, utf8Len_append] at size ⊢
    omega

section Secret

variable (secret : key ∈ secrets)

include secret

theorem shown_secret_eq_ok_iff {text : String} :
    shown key value = .ok text ↔ ∃ tail, IsShownEnd value tail ∧ text = "****" ++ ofList tail := by
  simp only [shown, if_pos secret, ← fromByte_isShownEnd_iff]
  cases fromByte (value.utf8ByteSize - 4) value.toList with
  | none => exact ⟨nofun, nofun⟩
  | some tail => simp [eq_comm]

theorem shown_of_last {front last : List Char} (whole : value.toList = front ++ last)
    (four : last.length = 4) : shown key value = shown key (ofList last) := by
  have fourBytes : 4 ≤ utf8Len last := four ▸ length_le_utf8Len last
  have start : value.utf8ByteSize - 4 = utf8Len front + (utf8Len last - 4) := by
    rw [← utf8Len_toList, whole, utf8Len_append]
    omega
  simp only [shown, if_pos secret, start, whole, fromByte_append, utf8ByteSize_ofList,
    toList_ofList]

theorem get_eq_ok_iff (given : env key = some value) :
    env.get key = .ok (some value) ↔ ∃ tail, IsShownEnd value tail := by
  have read : env.get key = (fun _ => some value) <$> shown key value := by
    simp only [get, lookUp, given]
    cases shown key value <;> rfl
  rw [read]
  constructor
  · intro got
    cases told : shown key value with
    | error fault =>
      rw [told] at got
      cases got
    | ok text =>
      obtain ⟨tail, shows, -⟩ := (shown_secret_eq_ok_iff secret).mp told
      exact ⟨tail, shows⟩
  · rintro ⟨tail, shows⟩
    rw [(shown_secret_eq_ok_iff secret).mpr ⟨tail, shows, rfl⟩]
    rfl

/-- A secret can be read just if its last four bytes begin with a character, or it has no more. What
is noted of it are then four stars and these bytes, four of its last characters at most. Two secrets
that agree on their last four characters are noted alike, or neither can be read. -/
theorem secret_noted (given : env key = some value) :
    (env.get key = .ok (some value) ↔ ∃ tail, IsShownEnd value tail) ∧
    (∀ found, env.lookUp key = .ok found → ∃ tail, tail <:+ value.toList ∧ tail.length ≤ 4 ∧
      found.logLine = "env var " ++ key ++ ": " ++ ("****" ++ ofList tail)) ∧
    ∀ (other : Environment) (valueToo : String) (last : List Char), other key = some valueToo →
      last.length = 4 → last <:+ value.toList → last <:+ valueToo.toList →
        Lookup.logLine <$> env.lookUp key = Lookup.logLine <$> other.lookUp key := by
  refine ⟨get_eq_ok_iff secret given, ?noted, ?alike⟩
  case noted =>
    intro found looked
    simp only [lookUp, given] at looked
    cases told : shown key value with
    | error fault =>
      rw [told] at looked
      cases looked
    | ok text =>
      rw [told] at looked
      cases looked
      obtain ⟨tail, ⟨ends, size⟩, rfl⟩ := (shown_secret_eq_ok_iff secret).mp told
      have noLonger := length_le_utf8Len tail
      exact ⟨tail, ends, by omega, rfl⟩
  case alike =>
    rintro other valueToo last givenToo four ⟨front, whole⟩ ⟨frontToo, wholeToo⟩
    simp only [lookUp, given, givenToo, shown_of_last secret whole.symm four,
      shown_of_last secret wholeToo.symm four]
    cases shown key (ofList last) <;> rfl

end Secret

/-- The last four bytes of the first secret are three characters. -/
theorem secret_noted_accented :
    get (fun _ => some "db/café") "DATABASE_URL" = .ok (some "db/café") ∧
      Lookup.logLine <$> lookUp (fun _ => some "db/café") "DATABASE_URL" =
        Lookup.logLine <$> lookUp (fun _ => some "host/café") "DATABASE_URL" := by
  have secret : "DATABASE_URL" ∈ secrets := by decide
  obtain ⟨read, -, alike⟩ := @secret_noted (fun _ => some "db/café") _ _ secret rfl
  constructor
  · exact read.mpr ⟨"afé".toList, ⟨"db/c".toList, by decide⟩, by decide⟩
  · exact alike _ _ "café".toList rfl (by decide) ⟨"db/".toList, by decide⟩
      ⟨"host/".toList, by decide⟩

/-- Four bytes before the end of this secret is the middle of its first letter. -/
theorem secret_unreadable :
    get (fun _ => some "éabc") "DATABASE_URL" = .error .cutInsideCharacter := by
  decide

end ValidatorDays.Environment
