import Mathlib
import ValidatorDays.Proofs.Upsert.Batches

namespace ValidatorDays

namespace Sql

inductive Token where
  | word (text : String)
  | parameter (number : Nat)
  | mark (c : Char)
  deriving DecidableEq, Repr

def inWord (c : Char) : Bool := c.isAlphanum || c == '_' || c == '$' || decide (127 < c.toNat)

/-- A dollar sign and a number are a parameter. A dollar sign elsewhere is part of a name. -/
def ofWord : List Char → List Token
  | [] => []
  | c :: rest =>
    if c = '$' ∧ rest ≠ [] ∧ ∀ d ∈ rest, d.isDigit = true then
      [.parameter (Nat.ofDigitChars 10 rest 0)]
    else [.word (String.ofList (c :: rest))]

/-- Blanks only keep words apart. -/
def ofMark (c : Char) : List Token := if c.isWhitespace then [] else [.mark c]

/-- Reads on after the beginning of a word. -/
def scan (begun : List Char) : List Char → List Token
  | [] => ofWord begun
  | c :: rest =>
    if inWord c then scan (begun ++ [c]) rest else ofWord begun ++ (ofMark c ++ scan [] rest)

def read (text : String) : List Token := scan [] text.toList

def Token.number? : Token → Option Nat
  | .parameter number => some number
  | _ => none

@[simp] theorem Token.number?_word (text : String) : (Token.word text).number? = none := rfl
@[simp] theorem Token.number?_mark (c : Char) : (Token.mark c).number? = none := rfl
@[simp] theorem Token.number?_parameter (n : Nat) : (Token.parameter n).number? = some n := rfl

def parameters (text : String) : List Nat := (read text).filterMap Token.number?

def listed (items : List (List Token)) : List Token := [Token.mark ','].intercalate items

def enclosed (inner : List Token) : List Token := .mark '(' :: (inner ++ [.mark ')'])

/-- The parts of a merge statement. Names are as they are read. -/
structure Merge where
  table : List Token
  columns : List (List Token)
  groups : List (List Nat)
  key : List (List Token)
  updated : List (List Token)

namespace Merge

def group (numbers : List Nat) : List Token :=
  enclosed (listed (numbers.map fun n => [.parameter n]))

def update (column : List Token) : List Token :=
  column ++ .mark '=' :: .word "excluded" :: .mark '.' :: column

def action (m : Merge) : List Token :=
  match m.updated with
  | [] => [.word "DO", .word "NOTHING"]
  | updated => .word "DO" :: .word "UPDATE" :: .word "SET" :: listed (updated.map update)

def tokens (m : Merge) : List Token :=
  .word "INSERT" :: .word "INTO" :: (m.table ++ (enclosed (listed m.columns) ++
    .word "VALUES" :: (listed (m.groups.map group) ++
      .word "ON" :: .word "CONFLICT" :: (enclosed (listed m.key) ++ m.action))))

end Merge

theorem scan_stop {d : Char} (stop : inWord d = false) (begun before after : List Char) :
    scan begun (before ++ d :: after) = scan begun before ++ (ofMark d ++ scan [] after) := by
  induction before generalizing begun with
  | nil => simp [scan, stop]
  | cons c rest ih =>
    simp only [List.cons_append, scan]
    split
    · exact ih _
    · rw [ih, List.append_assoc, List.append_assoc]

theorem scan_blank (before after : List Char) :
    scan [] (before ++ ' ' :: after) = scan [] before ++ scan [] after := scan_stop rfl ..

theorem scan_first_blank (after : List Char) : scan [] (' ' :: after) = scan [] after :=
  scan_blank [] after

theorem scan_word {letters : List Char} (all : ∀ c ∈ letters, inWord c = true)
    (begun : List Char) : scan begun letters = ofWord (begun ++ letters) := by
  induction letters generalizing begun with
  | nil => simp [scan]
  | cons c rest ih =>
    obtain ⟨first, others⟩ := List.forall_mem_cons.mp all
    rw [scan, if_pos first, ih others, List.append_assoc]
    rfl

theorem scan_listed (texts : List (List Char)) :
    scan [] ([',', ' '].intercalate texts) = listed (texts.map (scan [])) := by
  induction texts with
  | nil => rfl
  | cons first rest ih =>
    cases rest with
    | nil => simp [listed]
    | cons second others =>
      rw [List.intercalate_cons_cons, List.append_assoc, List.cons_append, scan_stop rfl,
        List.singleton_append, scan_first_blank, ih]
      rfl

theorem read_listed (texts : List String) :
    scan [] (", ".intercalate texts).toList = listed (texts.map read) := by
  rw [String.toList_intercalate]
  exact (scan_listed _).trans (by rw [List.map_map]; rfl)

theorem scan_enclosed (inner after : List Char) :
    scan [] ('(' :: (inner ++ ')' :: after)) = enclosed (scan [] inner) ++ scan [] after := by
  have inside := scan_stop (d := '(') rfl [] [] (inner ++ ')' :: after)
  rw [List.nil_append] at inside
  rw [inside, scan_stop rfl]
  simp [enclosed, scan, ofWord, ofMark]

theorem scan_keyword (name : String) (letters : name.toList.all Char.isAlpha = true)
    (nonempty : name.toList ≠ []) : scan [] name.toList = [.word name] := by
  have letters := List.all_eq_true.mp letters
  have all : ∀ c ∈ name.toList, inWord c = true := by
    intro c member
    simp [inWord, Char.isAlphanum, letters c member]
  rw [scan_word all, List.nil_append]
  cases text : name.toList with
  | nil => exact absurd text nonempty
  | cons c rest =>
    have letter : c.isAlpha = true := letters c (text ▸ List.mem_cons_self)
    have noDollar : c ≠ '$' := by
      rintro rfl
      exact absurd letter (by decide)
    rw [ofWord, if_neg fun dollar => noDollar dollar.1, ← text, String.ofList_toList]

theorem inWord_of_isDigit {c : Char} (digit : c.isDigit = true) : inWord c = true := by
  simp [inWord, Char.isAlphanum, digit]

theorem scan_placeholder (n : Nat) : scan [] (Target.placeholder n).toList = [.parameter n] := by
  have digits : ∀ c ∈ Nat.toDigits 10 n, c.isDigit = true :=
    fun _ member => Nat.isDigit_of_mem_toDigits (by decide) (by decide) member
  have nonempty : Nat.toDigits 10 n ≠ [] := Nat.toDigits_ne_nil
  have text : (Target.placeholder n).toList = '$' :: Nat.toDigits 10 n := by
    have nonneg : ¬ (n : Int) < 0 := by omega
    simp [Target.placeholder, intText, intChars, nonneg]
  have all : ∀ c ∈ '$' :: Nat.toDigits 10 n, inWord c = true :=
    List.forall_mem_cons.mpr ⟨rfl, fun c member => inWord_of_isDigit (digits c member)⟩
  rw [text, scan_word all, List.nil_append, ofWord, if_pos ⟨rfl, nonempty, digits⟩,
    Nat.ofDigitChars_ten_toDigits]

end Sql

namespace Target

def groups (t : Target) (rowCount : Nat) : List (List Nat) :=
  (List.range rowCount).map fun r =>
    (List.range t.columns.length).map fun c => r * t.columns.length + c + 1

def statement (t : Target) (rowCount : Nat) : Sql.Merge where
  table := Sql.read t.table
  columns := t.columns.map Sql.read
  groups := t.groups rowCount
  key := t.key.map Sql.read
  updated := t.ownColumns.map Sql.read

theorem read_placeholders (width row : Nat) : Sql.read (placeholders width row) =
    Sql.Merge.group ((List.range width).map fun c => row * width + c + 1) := by
  have inner := Sql.read_listed ((List.range width).map fun c => placeholder (row * width + c + 1))
  have text : (placeholders width row).toList =
      '(' :: ((", ".intercalate ((List.range width).map fun c =>
        placeholder (row * width + c + 1))).toList ++ ')' :: []) := by
    simp only [placeholders, String.toList_append]
    rfl
  have each : Sql.read ∘ (fun c => placeholder (row * width + c + 1)) =
      (fun n => [Sql.Token.parameter n]) ∘ fun c => row * width + c + 1 :=
    funext fun c => Sql.scan_placeholder (row * width + c + 1)
  rw [Sql.read, text, Sql.scan_enclosed, inner, List.map_map, each, Sql.Merge.group, List.map_map]
  exact List.append_nil _

theorem read_update (column : String) : Sql.read (column ++ " = excluded." ++ column) =
    Sql.Merge.update (Sql.read column) := by
  have text : (column ++ " = excluded." ++ column).toList = column.toList ++ ' ' ::
      ([] ++ '=' :: ([] ++ ' ' :: ("excluded".toList ++ '.' :: column.toList))) := by
    simp only [String.toList_append, List.append_assoc]
    rfl
  rw [Sql.read, text]
  simp only [Sql.scan_blank, Sql.scan_stop (d := '=') rfl, Sql.scan_stop (d := '.') rfl]
  rfl

theorem read_action (t : Target) (rowCount : Nat) :
    Sql.read t.conflictAction = (t.statement rowCount).action := by
  unfold conflictAction Sql.Merge.action
  simp only [statement]
  cases t.ownColumns with
  | nil => rfl
  | cons first others =>
    have text : ("DO UPDATE SET " ++ ", ".intercalate
        ((first :: others).map fun c => c ++ " = excluded." ++ c)).toList = "DO".toList ++ ' ' ::
          ("UPDATE".toList ++ ' ' :: ("SET".toList ++ ' ' :: (", ".intercalate
            ((first :: others).map fun c => c ++ " = excluded." ++ c)).toList)) := by
      rw [String.toList_append]
      rfl
    have each : Sql.read ∘ (fun c => c ++ " = excluded." ++ c) = Sql.Merge.update ∘ Sql.read :=
      funext read_update
    simp only
    rw [Sql.read, text]
    simp only [Sql.scan_blank, Sql.read_listed, List.map_map, each,
      Sql.scan_keyword "DO" (by decide) (by decide),
      Sql.scan_keyword "UPDATE" (by decide) (by decide),
      Sql.scan_keyword "SET" (by decide) (by decide)]
    rw [← List.map_map]
    rfl

theorem toList_sql (t : Target) (rowCount : Nat) : (t.sql rowCount).toList =
    "INSERT".toList ++ ' ' :: ("INTO".toList ++ ' ' :: (t.table.toList ++ ' ' ::
      '(' :: ((", ".intercalate t.columns).toList ++ ')' :: ' ' :: ("VALUES".toList ++ ' ' ::
        ((", ".intercalate ((List.range rowCount).map (placeholders t.columns.length))).toList ++
          ' ' :: ("ON".toList ++ ' ' :: ("CONFLICT".toList ++ ' ' ::
            '(' :: ((", ".intercalate t.key).toList ++ ')' :: ' ' ::
              t.conflictAction.toList)))))))) := by
  have spread (a b c d e f g h i j : String) :
      (a ++ b ++ c ++ d ++ e ++ f ++ g ++ h ++ i ++ j).toList =
        a.toList ++ (b.toList ++ (c.toList ++ (d.toList ++ (e.toList ++ (f.toList ++ (g.toList ++
          (h.toList ++ (i.toList ++ j.toList)))))))) := by
    simp only [String.toList_append, List.append_assoc]
  refine (spread ..).trans ?_
  generalize t.table.toList = table
  generalize (", ".intercalate t.columns).toList = columns
  generalize (", ".intercalate _).toList = values
  generalize (", ".intercalate t.key).toList = key
  generalize t.conflictAction.toList = action
  simp

theorem read_sql (t : Target) (rowCount : Nat) :
    Sql.read (t.sql rowCount) = (t.statement rowCount).tokens := by
  have each : Sql.read ∘ placeholders t.columns.length = Sql.Merge.group ∘ fun r =>
      (List.range t.columns.length).map fun c => r * t.columns.length + c + 1 :=
    funext (read_placeholders t.columns.length)
  have action : Sql.scan [] t.conflictAction.toList = (t.statement rowCount).action :=
    t.read_action rowCount
  rw [Sql.read, toList_sql]
  simp only [Sql.scan_blank, Sql.scan_first_blank, Sql.scan_enclosed, Sql.read_listed,
    List.map_map, each, action,
    Sql.scan_keyword "INSERT" (by decide) (by decide),
    Sql.scan_keyword "INTO" (by decide) (by decide),
    Sql.scan_keyword "VALUES" (by decide) (by decide),
    Sql.scan_keyword "ON" (by decide) (by decide),
    Sql.scan_keyword "CONFLICT" (by decide) (by decide)]
  simp only [Sql.Merge.tokens, statement, groups, List.map_map]
  rfl

end Target
end ValidatorDays
