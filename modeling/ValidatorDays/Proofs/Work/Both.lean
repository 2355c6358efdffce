import Mathlib.Data.List.Induction
import Mathlib.Data.List.Perm.Basic
import ValidatorDays.Proofs.Work.Keeps
/-! Two works at the same time. What goes on is a history of each, woven into one, so what holds of
the works holds of both of them together. -/
namespace ValidatorDays.Program

variable {α β : Type}

/-- Two histories put into one, each in its own order, with the turns in between. -/
inductive Woven : List Event → List Event → List Event → Prop where
  | nil : Woven [] [] []
  | first {own other seen : List Event} (woven : Woven own other seen) (e : Event) :
    Woven (own ++ [e]) other (seen ++ [e])
  | second {own other seen : List Event} (woven : Woven own other seen) (e : Event) :
    Woven own (other ++ [e]) (seen ++ [e])
  | turn {own other seen : List Event} (woven : Woven own other seen) (mine : Bool) :
    Woven own other (seen ++ [⟨.firstGoesOn, mine⟩])

namespace Woven

variable {own other seen : List Event}

theorem alone (own : List Event) : Woven own [] own := by
  induction own using List.reverseRecOn with
  | nil => exact .nil
  | append_singleton before e ih => exact ih.first e

theorem append {ownLater otherLater later : List Event} (woven : Woven own other seen)
    (more : Woven ownLater otherLater later) :
    Woven (own ++ ownLater) (other ++ otherLater) (seen ++ later) := by
  induction more with
  | nil => simpa only [List.append_nil] using woven
  | first _ e ih =>
    rw [← List.append_assoc, ← List.append_assoc]
    exact ih.first e
  | second _ e ih =>
    rw [← List.append_assoc, ← List.append_assoc]
    exact ih.second e
  | turn _ mine ih =>
    rw [← List.append_assoc]
    exact ih.turn mine

theorem first_sublist (woven : Woven own other seen) : own.Sublist seen := by
  induction woven with
  | nil => exact .slnil
  | first _ e ih => exact ih.append (.refl [e])
  | second _ e ih | turn _ _ ih => exact ih.trans (List.sublist_append_left _ _)

theorem second_sublist (woven : Woven own other seen) : other.Sublist seen := by
  induction woven with
  | nil => exact .slnil
  | second _ e ih => exact ih.append (.refl [e])
  | first _ e ih | turn _ _ ih => exact ih.trans (List.sublist_append_left _ _)

theorem mem (woven : Woven own other seen) {e : Event} (member : e ∈ seen) :
    e ∈ own ∨ e ∈ other ∨ e.1 = .firstGoesOn := by
  induction woven with
  | nil => cases member
  | first _ last ih | second _ last ih =>
    rcases List.mem_append.mp member with before | now
    · rcases ih before with mine | theirs | turn <;> simp [*]
    · simp [List.mem_singleton.mp now]
  | turn _ mine ih =>
    rcases List.mem_append.mp member with before | now
    · exact ih before
    · exact .inr (.inr (congrArg Sigma.fst (List.mem_singleton.mp now)))

/-- What the events show is shown by the two histories, where a turn shows nothing. -/
theorem filterMap_perm {A : Type} (woven : Woven own other seen) {f : Event → Option A}
    (silent : ∀ mine, f ⟨.firstGoesOn, mine⟩ = none) :
    (seen.filterMap f).Perm (own.filterMap f ++ other.filterMap f) := by
  induction woven with
  | nil => exact .nil
  | first woven e ih =>
    rw [List.filterMap_append, List.filterMap_append, List.append_assoc]
    refine (ih.append_right _).trans ?_
    rw [List.append_assoc]
    exact List.perm_append_comm.append_left _
  | second woven e ih =>
    rw [List.filterMap_append, List.filterMap_append, ← List.append_assoc]
    exact ih.append_right _
  | turn woven mine ih =>
    rw [List.filterMap_append, List.filterMap_cons_none (silent mine), List.filterMap_nil,
      List.append_nil]
    exact ih

end Woven

section Both

variable {may mayToo : List Event → Request → Prop} {good : List Event → α → Prop}
  {goodToo : List Event → β → Prop} {bad badToo : List Event → Failure → Prop}

theorem Keeps.left {q : Program β} {own other seen : List Event}
    (kept : q.Keeps mayToo goodToo badToo other) (woven : Woven own other seen) :
    q.Keeps (fun h r => ∃ other, Woven own other h ∧ mayToo other r)
      (fun h b => ∃ other, Woven own other h ∧ goodToo other b)
      (fun h cause => ∃ other, Woven own other h ∧ badToo other cause) seen := by
  induction q generalizing other seen with
  | done b => exact ⟨other, woven, kept⟩
  | fail cause => exact ⟨other, woven, kept⟩
  | ask r next ih =>
    exact ⟨⟨other, woven, kept.1⟩, fun answer => ih answer (kept.2 answer) (woven.second _)⟩

/-- Of two works at the same time each keeps to its own, whatever the other does. If they fail then
one of them does, and the other is left where it is. -/
theorem Keeps.both {p : Program α} {q : Program β} {own other seen : List Event}
    (first : p.Keeps may good bad own) (second : q.Keeps mayToo goodToo badToo other)
    (woven : Woven own other seen) :
    (p.both q).Keeps
      (fun h r => r = .firstGoesOn ∨
        ∃ own other, Woven own other h ∧ (may own r ∨ mayToo other r))
      (fun h pair => ∃ own other, Woven own other h ∧ good own pair.1 ∧ goodToo other pair.2)
      (fun h cause => ∃ own other, Woven own other h ∧ (bad own cause ∨ badToo other cause))
      seen := by
  induction p generalizing q own other seen with
  | done a =>
    refine (keeps_bind q _ _).mpr ((second.left woven).mono ?_ ?_ ?_)
    · rintro h r ⟨other, woven, asked⟩
      exact .inr ⟨own, other, woven, .inr asked⟩
    · rintro h b ⟨other, woven, ended⟩
      exact ⟨own, other, woven, first, ended⟩
    · rintro h cause ⟨other, woven, failed⟩
      exact ⟨own, other, woven, .inr failed⟩
  | fail cause => exact ⟨own, other, woven, .inl first⟩
  | ask r next ih =>
    have onward (answer : r.Answer) {q : Program β} {other seen : List Event}
        (second : q.Keeps mayToo goodToo badToo other) (woven : Woven own other seen) :=
      ih answer (first.2 answer) second (woven.first ⟨r, answer⟩)
    change (beside r (fun answer => (next answer).both) q).Keeps _ _ _ seen
    induction q generalizing other seen with
    | done b =>
      exact ⟨.inr ⟨own, other, woven, .inl first.1⟩, fun answer => onward answer second woven⟩
    | fail cause => exact ⟨own, other, woven, .inr second⟩
    | ask r' next' ihq =>
      rw [beside]
      refine ⟨.inl rfl, fun mine => ?_⟩
      have turned := woven.turn mine
      cases mine with
      | true =>
        exact ⟨.inr ⟨own, other, turned, .inl first.1⟩,
          fun answer => onward answer second turned⟩
      | false =>
        exact ⟨.inr ⟨own, other, turned, .inr second.1⟩,
          fun answer => ihq answer (second.2 answer) (turned.second _)⟩

end Both

theorem Only.both {asks : Request → Prop} {p : Program α} {q : Program β} (first : p.Only asks)
    (second : q.Only asks) (turns : asks .firstGoesOn) : (p.both q).Only asks := by
  refine (Keeps.both first second .nil).mono ?_ (fun _ _ _ => trivial) fun _ _ _ => trivial
  rintro h r (rfl | ⟨_, _, -, asked⟩)
  · exact turns
  · exact asked.elim id id

theorem keeps_runs (p : Program α) : p.Keeps (fun _ _ => True) (fun h a => Runs p h (.ok a))
    (fun h cause => Runs p h (.error cause)) [] := by
  suffices onward : ∀ (q : Program α) (seen : List Event),
      (∀ rest result, Runs q rest result → Runs p (seen ++ rest) result) →
      q.Keeps (fun _ _ => True) (fun h a => Runs p h (.ok a))
        (fun h cause => Runs p h (.error cause)) seen from
    onward p [] fun _ _ => id
  intro q
  induction q with
  | done a =>
    intro seen reached
    have whole := reached [] _ (.done a)
    rwa [List.append_nil] at whole
  | fail cause =>
    intro seen reached
    have whole := reached [] _ (.fail cause)
    rwa [List.append_nil] at whole
  | ask r next ih =>
    intro seen reached
    refine ⟨trivial, fun answer => ih answer _ fun rest result run => ?_⟩
    rw [List.append_assoc]
    exact reached _ _ (.ask answer run)

theorem Runs.both_ok {p : Program α} {q : Program β} {trace : List Event} {pair : α × β}
    (run : Runs (p.both q) trace (.ok pair)) : ∃ own other, Runs p own (.ok pair.1) ∧
      Runs q other (.ok pair.2) ∧ Woven own other trace := by
  obtain ⟨own, other, woven, first, second⟩ :=
    (Keeps.both (keeps_runs p) (keeps_runs q) .nil).ends run
  exact ⟨own, other, first, second, woven⟩

/-- It may be that the first work goes on as long as it can. -/
theorem Runs.both {p : Program α} {q : Program β} {own other : List Event} {a : α} {b : β}
    (first : Runs p own (.ok a)) (second : Runs q other (.ok b)) :
    ∃ turned, Woven own [] turned ∧ Runs (p.both q) (turned ++ other) (.ok (a, b)) := by
  generalize ended : (Except.ok a : Outcome α) = result at first
  induction first with
  | done a =>
    cases ended
    refine ⟨[], .nil, runs_bind.mpr (.inl ⟨other, b, [], ?_, second, .done _⟩)⟩
    exact (List.append_nil other).symm
  | fail cause => cases ended
  | @ask r next trace result answer rest ih =>
    obtain ⟨turned, woven, onward⟩ := ih ended
    have begun : Woven [⟨r, answer⟩] [] [⟨r, answer⟩] := .alone _
    have turn : Woven [] [] [⟨.firstGoesOn, true⟩] := Woven.nil.turn true
    cases second with
    | done b => exact ⟨_, begun.append woven, .ask answer onward⟩
    | @ask r' next' =>
      refine ⟨_, (turn.append begun).append woven, ?_⟩
      change Runs (beside r (fun answer => (next answer).both) (.ask r' next')) _ _
      rw [beside]
      exact .ask (r := .firstGoesOn) true (.ask answer onward)

end ValidatorDays.Program
