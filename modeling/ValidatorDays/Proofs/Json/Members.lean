import Mathlib.Data.List.Nodup
import ValidatorDays.Json.Decoder

namespace ValidatorDays.Json

theorem integer_int {b : Bounds} {n : Int} (inside : n ∈ b) (expected : String) :
    integer b expected (.int n) = .ok n := if_pos inside

theorem listOf_map {α : Type} {decoder : Decoder α} {encode : α → Json} {items : List α}
    (each : ∀ item ∈ items, decoder (encode item) = .ok item) :
    listOf decoder (.list (items.map encode)) = .ok items := by
  change (items.map encode).mapM decoder = .ok items
  induction items with
  | nil => rfl
  | cons item rest ih =>
    obtain ⟨first, others⟩ := List.forall_mem_cons.mp each
    rw [List.map_cons, List.mapM_cons, first, ih others]
    rfl

theorem find?_key {α κ : Type} [DecidableEq κ] {key : α → κ} {items : List α}
    (distinct : (items.map key).Nodup) {item : α} (member : item ∈ items) :
    items.find? (fun i => key i = key item) = some item := by
  induction items with
  | nil => cases member
  | cons first rest ih =>
    obtain ⟨new, distinct⟩ := List.nodup_cons.mp distinct
    rcases List.mem_cons.mp member with rfl | member
    · exact List.find?_cons_of_pos (decide_eq_true rfl)
    · have other : key first ≠ key item := fun same => new (same ▸ List.mem_map_of_mem member)
      rw [List.find?_cons_of_neg (by simpa using other), ih distinct member]

section Fields

variable {fields all : List (Member × Json)}

def names (fields : List (Member × Json)) : List String := fields.map (·.1.name)

def named (fields : List (Member × Json)) : List (Option String × Json) :=
  fields.map fun f => (some f.1.name, f.2)

theorem find?_member (distinct : (names all).Nodup) {f : Member × Json} (member : f ∈ all) :
    (all.map Prod.fst).find? (·.name = f.1.name) = some f.1 := by
  have keys : ((all.map Prod.fst).map Member.name).Nodup := by rwa [List.map_map]
  exact find?_key keys (List.mem_map_of_mem member)

theorem find?_named (distinct : (names all).Nodup) {f : Member × Json} (member : f ∈ all) :
    (named all).find? (·.1 = some f.1.name) = some (some f.1.name, f.2) := by
  have keys : ((named all).map Prod.fst).Nodup := by
    have present : ((names all).map some).Nodup := distinct.map fun _ _ => Option.some.inj
    rw [names, List.map_map] at present
    rwa [named, List.map_map]
  exact find?_key keys (List.mem_map_of_mem (f := fun f => (some f.1.name, f.2)) member)

theorem checkMembers_named (distinct : (names all).Nodup) {seen : List String}
    (own : ∀ f ∈ fields, f ∈ all ∧ f.1.check f.2 = .ok ())
    (once : (names fields ++ seen).Nodup) :
    checkMembers (all.map Prod.fst) seen (named fields) = .ok () := by
  induction fields generalizing seen with
  | nil => rfl
  | cons f rest ih =>
    obtain ⟨⟨member, passes⟩, others⟩ := List.forall_mem_cons.mp own
    -- `once` says of the names still to come and of those seen that none is there twice.
    have later := ih others (List.perm_middle.nodup_iff.mpr once)
    have new : f.1.name ∉ seen := fun before =>
      (List.nodup_cons.mp once).1 (List.mem_append_right _ before)
    change checkMembers _ _ ((some f.1.name, f.2) :: named rest) = _
    simp only [checkMembers, find?_member distinct member, if_neg new, passes]
    exact later

theorem memberValues_named (distinct : (names all).Nodup) (own : ∀ f ∈ fields, f ∈ all) :
    memberValues (named all) (fields.map Prod.fst) = .ok (fields.map Prod.snd) := by
  induction fields with
  | nil => rfl
  | cons f rest ih =>
    obtain ⟨member, others⟩ := List.forall_mem_cons.mp own
    simp only [List.map_cons, memberValues, find?_named distinct member, ih others]
    rfl

theorem membersOf_named (expected : String) (distinct : (names fields).Nodup)
    (pass : ∀ f ∈ fields, f.1.check f.2 = .ok ()) :
    membersOf expected (fields.map Prod.fst) (.object (named fields)) =
      .ok (fields.map Prod.snd) := by
  have once : (names fields ++ []).Nodup := by rwa [List.append_nil]
  have checked := checkMembers_named distinct (fun f member => ⟨member, pass f member⟩) once
  simp only [membersOf, checked]
  exact memberValues_named distinct fun _ => id

end Fields
end ValidatorDays.Json
