import ValidatorDays.Proofs.Json.Members
import ValidatorDays.Proofs.Json.RoundTrip
/-! What a value carries to whoever decodes it, handed over as it is or as its text. An object
carries a thing if each member carries its part. -/
namespace ValidatorDays.Json

structure Carries {α : Type} (decoder : Decoder α) (value : Json) (a : α) : Prop where
  plain : Plain value
  decoded : decoder value = .ok a

/-- Nothing of `a` is lost, be the value handed over as it is or as its text. -/
def Kept {α : Type} (decoder : Decoder α) (value : Json) (a : α) : Prop :=
  decoder value = .ok a ∧ decodeText decoder value.write = .ok a

/-- Each member is there, with a value that passes its check. -/
def Fills : List Member → List Json → Prop :=
  List.Forall₂ fun member value => Plain value ∧ member.check value = .ok ()

namespace Carries

variable {α : Type} {decoder : Decoder α} {value : Json} {a : α} {n : Int}

theorem kept (carries : Carries decoder value a) : Kept decoder value a :=
  ⟨carries.decoded, (carries.plain.decodeText_write decoder).trans carries.decoded⟩

theorem integer {b : Bounds} (inside : n ∈ b) (whole : n ∈ wholeNumbers) (expected : String) :
    Carries (Json.integer b expected) (.int n) n := ⟨.int whole, integer_int inside expected⟩

theorem int64 (inside : n ∈ Bounds.int64) : Carries Json.int64 (.int n) n := by
  refine integer inside ⟨inside.1, Int.le_trans inside.2 ?_⟩ _
  decide

theorem int32 (inside : n ∈ Bounds.int32) : Carries Json.int32 (.int n) n := by
  refine integer inside ⟨Int.le_trans ?_ inside.1, Int.le_trans inside.2 ?_⟩ _ <;> decide

theorem byte (inside : n ∈ Bounds.byte) : Carries Json.byte (.int n) n := by
  refine integer inside ⟨Int.le_trans ?_ inside.1, Int.le_trans inside.2 ?_⟩ _ <;> decide

theorem string (s : String) : Carries Json.string (.text s) s := ⟨.text s, rfl⟩

theorem list {items : List α} {encode : α → Json}
    (each : ∀ item ∈ items, Carries decoder (encode item) item) :
    Carries (listOf decoder) (.list (items.map encode)) items where
  plain := .list (List.forall_mem_map.mpr fun item member => (each item member).plain)
  decoded := listOf_map fun item member => (each item member).decoded

theorem required (carries : Carries decoder value a) (name : String) :
    Plain value ∧ (Member.required name decoder).check value = .ok () := by
  refine ⟨carries.plain, ?_⟩
  simp only [Member.required, carries.decoded]
  rfl

theorem voluntary (carries : Carries decoder value a) (name : String) :
    Plain value ∧ (Member.voluntary name decoder).check value = .ok () := carries.required name

theorem made {β : Type} {make : α → Except DecodeError β} {b : β}
    (carries : Carries decoder value a) (makes : make a = .ok b) :
    Carries (fun value => decoder value >>= make) value b := by
  refine ⟨carries.plain, ?_⟩
  simp only [carries.decoded]
  exact makes

end Carries

theorem Fills.object {members : List Member} {values : List Json} (fills : Fills members values)
    (distinct : (members.map Member.name).Nodup) (expected : String) :
    Carries (membersOf expected members) (.object (named (members.zip values))) values := by
  have length : members.length = values.length := fills.length_eq
  have firsts : (members.zip values).map Prod.fst = members :=
    List.map_fst_zip (Nat.le_of_eq length)
  have seconds : (members.zip values).map Prod.snd = values :=
    List.map_snd_zip (Nat.le_of_eq length.symm)
  have each : ∀ f ∈ members.zip values, Plain f.2 ∧ f.1.check f.2 = .ok () :=
    fun _ member => List.forall₂_zip fills member
  have once : (names (members.zip values)).Nodup := by
    rwa [← firsts, List.map_map] at distinct
  have decoded := membersOf_named expected once fun f member => (each f member).2
  rw [firsts, seconds] at decoded
  refine ⟨.object ?_ ?_, decoded⟩
  · exact List.forall_mem_map.mpr fun _ _ => rfl
  · exact List.forall_mem_map.mpr fun f member => (each f member).1

end ValidatorDays.Json
