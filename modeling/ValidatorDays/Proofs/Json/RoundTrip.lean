import Mathlib.Data.List.Basic
import ValidatorDays.Json.Decoder
import ValidatorDays.Proofs.Json.Leaves
/-! A value is read back from its text. What is asked of each part is that it can be read off
whatever text it opens, so that the parts of a list or an object need no knowledge of each other. -/
namespace ValidatorDays.Json

/-- The parts that follow a first one, the mark that ends them, and what comes after. -/
def closing (close : Char) : List (List Char) → List Char → List Char
  | [], after => close :: after
  | part :: parts, after => ',' :: (part ++ closing close parts after)

theorem intercalate_closing (close : Char) (first : List Char) (others : List (List Char))
    (after : List Char) : [','].intercalate (first :: others) ++ close :: after =
      first ++ closing close others after := by
  induction others generalizing first with
  | nil => simp [closing]
  | cons second rest ih =>
    rw [List.intercalate_cons_cons, List.append_assoc, ih, closing]
    simp

def chars (value : Json) : List Char := value.write.toList

def memberChars (member : Option String × Json) : List Char :=
  '"' :: (member.1.getD "").toList.flatMap writeChar ++ '"' :: ':' :: member.2.chars

theorem writeItems_eq (items : List Json) :
    (writeItems items).map String.toList = items.map chars := by
  induction items with
  | nil => rfl
  | cons item rest ih => rw [writeItems, List.map_cons, ih, List.map_cons, chars]

theorem writeMembers_eq (members : List (Option String × Json)) :
    (writeMembers members).map String.toList = members.map memberChars := by
  induction members with
  | nil => rfl
  | cons member rest ih =>
    rw [writeMembers, List.map_cons, ih, List.map_cons]
    simp [memberChars, writeName, writeText, chars]

theorem chars_text (s : String) : chars (.text s) = '"' :: s.toList.flatMap writeChar ++ ['"'] := by
  simp [chars, write, writeText]

theorem chars_list (items : List Json) :
    chars (.list items) = '[' :: [','].intercalate (items.map chars) ++ [']'] := by
  rw [← writeItems_eq]
  simp [chars, write, joined]

theorem chars_list_cons (item : Json) (rest : List Json) (after : List Char) :
    chars (.list (item :: rest)) ++ after =
      '[' :: (item.chars ++ closing ']' (rest.map chars) after) := by
  rw [← intercalate_closing, chars_list]
  simp

theorem chars_object (members : List (Option String × Json)) : chars (.object members) =
    '\x7b' :: [','].intercalate (members.map memberChars) ++ ['\x7d'] := by
  rw [← writeMembers_eq]
  simp [chars, write, joined]

theorem chars_object_cons (member : Option String × Json) (rest : List (Option String × Json))
    (after : List Char) : chars (.object (member :: rest)) ++ after =
      '\x7b' :: (memberChars member ++ closing '\x7d' (rest.map memberChars) after) := by
  rw [← intercalate_closing, chars_object]
  simp

/-- What can be written so that it is read back: no fractions, no number beyond 64 bits, and
nothing that stands for a text that was not read. -/
inductive Plain : Json → Prop where
  | null : Plain .null
  | bool (b : Bool) : Plain (.bool b)
  | int {n : Int} (inside : n ∈ wholeNumbers) : Plain (.int n)
  | text (s : String) : Plain (.text s)
  | list {items : List Json} (each : ∀ item ∈ items, Plain item) : Plain (.list items)
  | object {members : List (Option String × Json)} (named : ∀ m ∈ members, m.1.isSome)
      (each : ∀ m ∈ members, Plain m.2) : Plain (.object members)

def ReadsBack (value : Json) : Prop :=
  ∀ fuel rest, 2 * (value.chars ++ rest).length ≤ fuel → EndsNumber rest →
    readValue fuel (value.chars ++ rest) = (value, some rest)

theorem readsBack_int {n : Int} (inside : n ∈ wholeNumbers) : ReadsBack (.int n) := by
  intro fuel rest enough closes
  have written : chars (.int n) = intChars n := String.toList_ofList
  have read := readNumber_intChars inside closes
  obtain ⟨c, others, first, number⟩ := intChars_eq_cons n
  rw [written, first] at enough ⊢
  rw [first] at read
  cases fuel with
  | zero => cases enough
  | succ fuel =>
    rw [List.cons_append] at read ⊢
    exact readValue_number number read fuel

theorem readsBack_text (s : String) : ReadsBack (.text s) := by
  intro fuel rest enough _
  rw [chars_text] at enough ⊢
  cases fuel with
  | zero => cases enough
  | succ fuel =>
    have read := readText_writeText s.toList rest
    rw [String.ofList_toList] at read
    rw [List.append_assoc, List.cons_append, List.singleton_append]
    simp only [readValue, skipBlank_mark (rfl : isBlank '"' = false), read]

inductive Opens : List Char → Prop where
  | cons {c : Char} (shown : isBlank c = false) (inner : c ≠ ']') (rest : List Char) :
      Opens (c :: rest)

theorem Opens.append {cs : List Char} (opens : Opens cs) (after : List Char) :
    Opens (cs ++ after) := by
  cases opens with
  | cons shown inner rest => exact .cons shown inner (rest ++ after)

theorem Plain.opens {value : Json} (plain : Plain value) : Opens value.chars := by
  cases plain with
  | null => exact .cons rfl (by decide) _
  | bool b => cases b <;> exact .cons rfl (by decide) _
  | int inside =>
    obtain ⟨c, rest, first, number⟩ := intChars_eq_cons _
    rw [chars, write, intText, String.toList_ofList, first]
    exact .cons (number_shown number) (number_ne number (by decide)) rest
  | text s =>
    rw [chars_text]
    exact .cons rfl (by decide) _
  | list _ =>
    rw [chars_list]
    exact .cons rfl (by decide) _
  | object _ _ =>
    rw [chars_object]
    exact .cons rfl (by decide) _

theorem readValue_list {cs : List Char} (opens : Opens cs) (fuel : Nat) :
    readValue (fuel + 1) ('[' :: cs) = (.list (readItems fuel cs).1, (readItems fuel cs).2) := by
  cases opens with
  | @cons c shown inner rest =>
    simp only [readValue, skipBlank_mark (rfl : isBlank '[' = false), skipBlank_mark shown]
    split
    · next same => exact absurd (List.cons.inj same).1 inner
    · rfl

theorem readItems_written {item : Json} {rest : List Json} (first : ReadsBack item)
    (others : ∀ v ∈ rest, ReadsBack v) {fuel : Nat} {after : List Char}
    (enough : 2 * (item.chars ++ closing ']' (rest.map chars) after).length < fuel) :
    readItems fuel (item.chars ++ closing ']' (rest.map chars) after) =
      (item :: rest, some after) := by
  induction rest generalizing item fuel with
  | nil =>
    cases fuel with
    | zero => cases enough
    | succ fuel =>
      have read := first fuel _ (Nat.le_of_lt_succ enough) (.bracket after)
      rw [readItems, read]
      rfl
  | cons second rest ih =>
    cases fuel with
    | zero => cases enough
    | succ fuel =>
      obtain ⟨next, others⟩ := List.forall_mem_cons.mp others
      have read := first fuel _ (Nat.le_of_lt_succ enough) (.comma _)
      rw [List.map_cons, closing] at enough read ⊢
      have less : 2 * (second.chars ++ closing ']' (rest.map chars) after).length < fuel := by
        simp only [List.length_append, List.length_cons] at enough ⊢
        omega
      rw [readItems, read]
      change (item :: (readItems fuel _).1, (readItems fuel _).2) = _
      rw [ih next others less]

theorem memberChars_append (name : String) (value : Json) (after : List Char) :
    memberChars (some name, value) ++ after =
      '"' :: (name.toList.flatMap writeChar ++ '"' :: ':' :: (value.chars ++ after)) := by
  simp [memberChars]

theorem length_value_le (name : String) (value : Json) (after : List Char) :
    2 * (value.chars ++ after).length ≤ 2 * (memberChars (some name, value) ++ after).length := by
  rw [memberChars_append]
  simp only [List.length_append, List.length_cons]
  omega

theorem readName_written (name : String) (rest : List Char) :
    readName (name.toList.flatMap writeChar ++ '"' :: rest) = some (some name, rest) := by
  rw [readName, readText_writeText, String.ofList_toList]

section Member

variable {name : String} {value : Json} (reads : ReadsBack value) {fuel : Nat} {after : List Char}

include reads

theorem readMembers_last
    (enough : 2 * (memberChars (some name, value) ++ '\x7d' :: after).length ≤ fuel) :
    readMembers (fuel + 1) (memberChars (some name, value) ++ '\x7d' :: after) =
      ([(some name, value)], some after) := by
  have less := Nat.le_trans (length_value_le name value _) enough
  have read := reads fuel _ less (.brace after)
  rw [memberChars_append]
  simp only [readMembers, skipBlank_mark (rfl : isBlank '"' = false), readName_written,
    skipBlank_mark (rfl : isBlank ':' = false), read, skipBlank_mark (rfl : isBlank '\x7d' = false)]

theorem readMembers_comma
    (enough : 2 * (memberChars (some name, value) ++ ',' :: after).length ≤ fuel) :
    readMembers (fuel + 1) (memberChars (some name, value) ++ ',' :: after) =
      ((some name, value) :: (readMembers fuel after).1, (readMembers fuel after).2) := by
  have less := Nat.le_trans (length_value_le name value _) enough
  have read := reads fuel _ less (.comma after)
  rw [memberChars_append]
  simp only [readMembers, skipBlank_mark (rfl : isBlank '"' = false), readName_written,
    skipBlank_mark (rfl : isBlank ':' = false), read, skipBlank_mark (rfl : isBlank ',' = false)]

end Member

theorem readMembers_written {member : Option String × Json} {rest : List (Option String × Json)}
    (named : ∀ m ∈ member :: rest, m.1.isSome) (each : ∀ m ∈ member :: rest, ReadsBack m.2)
    {fuel : Nat} {after : List Char}
    (enough : 2 * (memberChars member ++ closing '\x7d' (rest.map memberChars) after).length <
      fuel) :
    readMembers fuel (memberChars member ++ closing '\x7d' (rest.map memberChars) after) =
      (member :: rest, some after) := by
  induction rest generalizing member fuel with
  | nil =>
    obtain ⟨name, value⟩ := member
    obtain ⟨name, rfl⟩ := Option.isSome_iff_exists.mp (named _ List.mem_cons_self)
    cases fuel with
    | zero => cases enough
    | succ fuel =>
      exact readMembers_last (each _ List.mem_cons_self) (Nat.le_of_lt_succ enough)
  | cons second rest ih =>
    obtain ⟨name, value⟩ := member
    obtain ⟨present, othersNamed⟩ := List.forall_mem_cons.mp named
    obtain ⟨reads, others⟩ := List.forall_mem_cons.mp each
    obtain ⟨name, rfl⟩ := Option.isSome_iff_exists.mp present
    cases fuel with
    | zero => cases enough
    | succ fuel =>
      have read := readMembers_comma reads (Nat.le_of_lt_succ enough)
      rw [List.map_cons, closing] at enough ⊢
      have less : 2 * (memberChars second ++
          closing '\x7d' (rest.map memberChars) after).length < fuel := by
        simp only [List.length_append, List.length_cons] at enough ⊢
        omega
      rw [read, ih othersNamed others less]

theorem readsBack_list {items : List Json} (plain : ∀ v ∈ items, Plain v)
    (each : ∀ v ∈ items, ReadsBack v) : ReadsBack (.list items) := by
  intro fuel after enough _
  cases fuel with
  | zero =>
    rw [chars_list] at enough
    cases enough
  | succ fuel =>
    cases items with
    | nil => rfl
    | cons item rest =>
      obtain ⟨reads, others⟩ := List.forall_mem_cons.mp each
      have opens := (plain item List.mem_cons_self).opens.append
        (closing ']' (rest.map chars) after)
      rw [chars_list_cons] at enough ⊢
      have less : 2 * (item.chars ++ closing ']' (rest.map chars) after).length < fuel := by
        rw [List.length_cons] at enough
        omega
      rw [readValue_list opens, readItems_written reads others less]

theorem readsBack_object {members : List (Option String × Json)} (named : ∀ m ∈ members, m.1.isSome)
    (each : ∀ m ∈ members, ReadsBack m.2) : ReadsBack (.object members) := by
  intro fuel after enough _
  cases fuel with
  | zero =>
    rw [chars_object] at enough
    cases enough
  | succ fuel =>
    cases members with
    | nil => rfl
    | cons member rest =>
      rw [chars_object_cons] at enough ⊢
      have less : 2 * (memberChars member ++
          closing '\x7d' (rest.map memberChars) after).length < fuel := by
        rw [List.length_cons] at enough
        omega
      have opened (cs : List Char) : readValue (fuel + 1) ('\x7b' :: (memberChars member ++ cs)) =
        (.object (readMembers fuel (memberChars member ++ cs)).1,
          (readMembers fuel (memberChars member ++ cs)).2) := rfl
      rw [opened, readMembers_written named each less]

theorem Plain.reads {value : Json} (plain : Plain value) : ReadsBack value := by
  induction plain with
  | null =>
    intro fuel after enough _
    cases fuel with
    | zero => cases enough
    | succ fuel => rfl
  | bool b =>
    intro fuel after enough _
    cases fuel with
    | zero => cases b <;> cases enough
    | succ fuel => cases b <;> rfl
  | int inside => exact readsBack_int inside
  | text s => exact readsBack_text s
  | list plain each => exact readsBack_list plain each
  | object named _ each => exact readsBack_object named each

theorem Plain.read_write {value : Json} (plain : Plain value) :
    read value.write = (value, true) := by
  have reads := plain.reads (2 * value.chars.length + 2) [] (by simp) .nil
  rw [List.append_nil, chars] at reads
  simp only [read, reads]
  rfl

/-- A text that was written is decoded as the value that it was written from. -/
theorem Plain.decodeText_write {α : Type} (decoder : Decoder α) {value : Json}
    (plain : Plain value) : decodeText decoder value.write = decoder value := by
  simp only [decodeText, plain.read_write]
  cases decoder value <;> rfl

end ValidatorDays.Json
