import Mathlib.Data.List.Nodup
import ValidatorDays.Tally

namespace ValidatorDays

section Last

variable {κ β : Type} [DecidableEq κ] {key : κ}

theorem lastFor?_cons (e : κ × β) (rest : List (κ × β)) : lastFor? key (e :: rest) =
    (lastFor? key rest).or (if e.1 = key then some e.2 else none) := by
  have begun (entries : List (κ × β)) (found : Option β) :
      entries.foldl (fun found entry => if entry.1 = key then some entry.2 else found) found =
        (lastFor? key entries).or found := by
    induction entries generalizing found with
    | nil => rfl
    | cons first others ih =>
      rw [lastFor?, List.foldl_cons, List.foldl_cons, ih, ih (if first.1 = key then _ else _),
        Option.or_assoc]
      split <;> rfl
  exact begun rest _

theorem lastFor?_eq_none {entries : List (κ × β)} (others : ∀ e ∈ entries, e.1 ≠ key) :
    lastFor? key entries = none := by
  induction entries with
  | nil => rfl
  | cons e rest ih =>
    obtain ⟨first, more⟩ := List.forall_mem_cons.mp others
    rw [lastFor?_cons, ih more, if_neg first]
    rfl

theorem lastFor?_eq_find? (entries : List (κ × β)) :
    lastFor? key entries = (entries.reverse.find? (·.1 = key)).map (·.2) := by
  induction entries with
  | nil => rfl
  | cons e rest ih =>
    rw [lastFor?_cons, ih, List.reverse_cons, List.find?_append, Option.map_or]
    by_cases same : e.1 = key
    · rw [if_pos same, List.find?_cons_of_pos (by simpa using same)]
      rfl
    · rw [if_neg same, List.find?_cons_of_neg (by simpa using same)]
      rfl

end Last

namespace Tally

variable {β : Type} {t : Tally β} {key : Int}

def Ascending (t : Tally β) : Prop := t.Pairwise fun a b => a.1 < b.1

theorem lookup_cons_eq (k : Int) (b : β) (t : Tally β) :
    ((k, b) :: t).lookup key = if key = k then some b else t.lookup key := by
  rw [List.lookup_cons]
  split <;> simp_all

theorem Ascending.mem_iff (ascending : t.Ascending) {b : β} :
    (key, b) ∈ t ↔ t.lookup key = some b := by
  induction t with
  | nil => exact ⟨nofun, nofun⟩
  | cons e rest ih =>
    obtain ⟨k, c⟩ := e
    obtain ⟨later, more⟩ := List.pairwise_cons.mp ascending
    rw [List.mem_cons, lookup_cons_eq]
    by_cases same : key = k
    · subst same
      have absent : (key, b) ∉ rest := fun member => absurd (later _ member) (Int.lt_irrefl _)
      simp [absent, eq_comm]
    · simp [same, ih more]

theorem Ascending.nodup (ascending : t.Ascending) : (t.map Prod.fst).Nodup :=
  (List.pairwise_map.mpr (ascending.imp Int.ne_of_lt))

theorem Ascending.ext {u : Tally β} (ascending : t.Ascending) (ascendingToo : u.Ascending)
    (same : ∀ k, t.lookup k = u.lookup k) : t = u := by
  have members (e : Int × β) : e ∈ t ↔ e ∈ u := by
    obtain ⟨k, b⟩ := e
    rw [ascending.mem_iff, ascendingToo.mem_iff, same]
  have perm : t.Perm u := (List.perm_ext_iff_of_nodup (List.Nodup.of_map _ ascending.nodup)
    (List.Nodup.of_map _ ascendingToo.nodup)).mpr members
  refine perm.eq_of_pairwise (fun a b _ _ first second => ?_) ascending ascendingToo
  exact absurd (Int.lt_trans first second) (Int.lt_irrefl _)

section Change

variable {f : Option β → Checked β} {u : Tally β}

theorem keys_cons {b : β} (within : ∀ e ∈ u, e ∈ t) :
    ∀ e ∈ (key, b) :: u, e.1 = key ∨ ∃ old ∈ t, old.1 = e.1 :=
  List.forall_mem_cons.mpr ⟨.inl rfl, fun e member => .inr ⟨e, within e member, rfl⟩⟩

theorem change_keys (changed : change key f t = .ok u) :
    ∀ e ∈ u, e.1 = key ∨ ∃ old ∈ t, old.1 = e.1 := by
  induction t generalizing u with
  | nil =>
    obtain ⟨b, -, same⟩ := bind_eq_ok.mp changed
    cases same
    exact keys_cons fun _ => id
  | cons e rest ih =>
    obtain ⟨k, c⟩ := e
    rw [change] at changed
    split at changed
    · obtain ⟨b, -, same⟩ := bind_eq_ok.mp changed
      cases same
      exact keys_cons fun _ => id
    · split at changed
      · rename_i same
        obtain ⟨b, -, entered⟩ := bind_eq_ok.mp changed
        cases entered
        cases same
        exact keys_cons fun _ => List.mem_cons_of_mem _
      · obtain ⟨v, onward, same⟩ := bind_eq_ok.mp changed
        cases same
        refine List.forall_mem_cons.mpr ⟨.inr ⟨_, List.mem_cons_self, rfl⟩, fun e member => ?_⟩
        exact (ih onward e member).imp_right fun ⟨old, inside, same⟩ =>
          ⟨old, List.mem_cons_of_mem _ inside, same⟩

theorem change_ok (ascending : t.Ascending) {b : β} (entered : f (t.lookup key) = .ok b) :
    ∃ u, change key f t = .ok u ∧ u.Ascending ∧
      ∀ k, u.lookup k = if k = key then some b else t.lookup k := by
  induction t with
  | nil =>
    have entered : f none = .ok b := entered
    refine ⟨[(key, b)], by rw [change, entered]; rfl, List.pairwise_singleton .., fun k => ?_⟩
    exact lookup_cons_eq ..
  | cons e rest ih =>
    obtain ⟨k, c⟩ := e
    obtain ⟨later, more⟩ := List.pairwise_cons.mp ascending
    rw [change]
    by_cases before : key < k
    · have absent : ∀ e ∈ (k, c) :: rest, key != e.1 := by
        intro e member
        rcases List.mem_cons.mp member with rfl | member
        · exact bne_iff_ne.mpr (Int.ne_of_lt before)
        · exact bne_iff_ne.mpr (Int.ne_of_lt (Int.lt_trans before (later e member)))
      rw [List.lookup_eq_none_iff.mpr absent] at entered
      refine ⟨(key, b) :: (k, c) :: rest, by rw [if_pos before, entered]; rfl, ?_, fun k' => ?_⟩
      · refine List.pairwise_cons.mpr ⟨fun e member => ?_, ascending⟩
        rcases List.mem_cons.mp member with rfl | member
        · exact before
        · exact Int.lt_trans before (later e member)
      · exact lookup_cons_eq ..
    · by_cases same : key = k
      · subst same
        rw [List.lookup_cons_self] at entered
        refine ⟨(key, b) :: rest, by rw [if_neg before, if_pos rfl, entered]; rfl,
          List.pairwise_cons.mpr ⟨later, more⟩, fun k' => ?_⟩
        rw [lookup_cons_eq, lookup_cons_eq]
        split <;> rfl
      · rw [lookup_cons_eq, if_neg same] at entered
        obtain ⟨u, changed, ordered, entries⟩ := ih more entered
        refine ⟨(k, c) :: u, by rw [if_neg before, if_neg same, changed]; rfl, ?_, fun k' => ?_⟩
        · refine List.pairwise_cons.mpr ⟨fun e member => ?_, ordered⟩
          rcases change_keys changed e member with rfl | ⟨old, inside, key⟩
          · show k < e.1
            omega
          · rw [← key]
            exact later old inside
        · rw [lookup_cons_eq, lookup_cons_eq, entries]
          by_cases first : k' = k
          · rw [if_pos first, if_pos first, if_neg (first ▸ Ne.symm same)]
          · rw [if_neg first, if_neg first]

theorem change_error (ascending : t.Ascending) {fault : Fault}
    (refused : f (t.lookup key) = .error fault) : change key f t = .error fault := by
  induction t with
  | nil =>
    have refused : f none = .error fault := refused
    rw [change, refused]
    rfl
  | cons e rest ih =>
    obtain ⟨k, c⟩ := e
    obtain ⟨later, more⟩ := List.pairwise_cons.mp ascending
    rw [lookup_cons_eq] at refused
    rw [change]
    by_cases before : key < k
    · have absent : ∀ e ∈ rest, key != e.1 := fun e member =>
        bne_iff_ne.mpr (Int.ne_of_lt (Int.lt_trans before (later e member)))
      rw [if_neg (Int.ne_of_lt before), List.lookup_eq_none_iff.mpr absent] at refused
      rw [if_pos before, refused]
      rfl
    · by_cases same : key = k
      · rw [if_pos same] at refused
        rw [if_neg before, if_pos same, refused]
        rfl
      · rw [if_neg same] at refused
        rw [if_neg before, if_neg same, ih more refused]
        rfl

end Change
end Tally
end ValidatorDays
