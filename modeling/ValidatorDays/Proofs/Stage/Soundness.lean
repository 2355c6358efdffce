import ValidatorDays.Proofs.Stage.Justified
/-! Sound tables: what is exported has its requirements exported, and what is finished is exported.
A statement that the table backs keeps it sound, and what an export has seen of a table stays true
while the table grows. That is all an export needs from one statement to the next. -/
namespace ValidatorDays

open Program

namespace StatusTable

def Meets (t : StatusTable) (day : Day) (category : Category) : Prop :=
  ∃ rs, requirementsOf day category = .ok rs ∧ ∀ r ∈ rs, t.Exported r.1 r.2

structure Sound (t : StatusTable) : Prop where
  required : ∀ day category, t.Exported day category → t.Meets day category
  finished : ∀ day, t.Finished day → ∀ category, t.Exported day category

/-- The table says enough for the statement to be made. -/
def Backs (t : StatusTable) : Write → Prop
  | .markExported day category => t.Meets day category
  | .setFinished day => ∀ category, t.Exported day category
  | _ => True

theorem sound_empty : empty.Sound := by
  constructor
  · intro day category exported
    cases exported
  · intro day finished
    cases finished

theorem Meets.grow {t u : StatusTable} {day : Day} {category : Category}
    (meets : t.Meets day category) (grows : t.GrowsInto u) : u.Meets day category :=
  meets.imp fun _ h => ⟨h.1, fun r hr => grows.1 _ _ (h.2 r hr)⟩

theorem Meets.consensusRewards {t : StatusTable} {day : Day}
    (meets : t.Meets day .consensusRewards) :
    t.Exported day .balance ∧ t.Exported day .withdrawalsDeposits ∧
      (Day.genesis < day → t.Exported ⟨day.number - 1⟩ .balance ∧
        t.Exported ⟨day.number - 1⟩ .withdrawalsDeposits) := by
  obtain ⟨rs, required, exported⟩ := meets
  cases consensusRewards_required required
  refine ⟨exported (day, _) (by simp), exported (day, _) (by simp), fun later => ?_⟩
  rw [if_pos later] at exported
  exact ⟨exported (_, .balance) (by simp), exported (_, .withdrawalsDeposits) (by simp)⟩

theorem Meets.totalPerformance {t : StatusTable} {day : Day}
    (meets : t.Meets day .totalPerformance) :
    t.Exported day .consensusRewards ∧ t.Exported day .executionRewards ∧
      (Day.genesis < day → t.Exported ⟨day.number - 1⟩ .consensusRewards ∧
        t.Exported ⟨day.number - 1⟩ .executionRewards) := by
  obtain ⟨rs, required, exported⟩ := meets
  cases totalPerformance_required required
  refine ⟨exported (day, _) (by simp), exported (day, _) (by simp), fun later => ?_⟩
  have positive : 0 < day.number := later
  rw [Int.max_eq_left (by omega)] at exported
  exact ⟨exported (_, .consensusRewards) (by simp), exported (_, .executionRewards) (by simp)⟩

theorem Backs.grow {t u : StatusTable} {w : Write} (backs : t.Backs w) (grows : t.GrowsInto u) :
    u.Backs w := by
  cases w with
  | markExported day category => exact Meets.grow backs grows
  | setFinished day => exact fun category => grows.1 _ _ (backs category)
  | _ => trivial

theorem Sound.write {t : StatusTable} (sound : t.Sound) {w : Write} (backs : t.Backs w) :
    (t.write w).Sound := by
  have grows := t.write_grows w
  cases w with
  | markExported day category =>
    constructor
    · intro d c exported
      rcases (t.exported_mark ..).mp exported with before | ⟨rfl, rfl⟩
      · exact (sound.required d c before).grow grows
      · exact Meets.grow backs grows
    · intro d finished c
      exact grows.1 d c (sound.finished d ((t.finished_mark ..).mp finished) c)
  | setFinished day =>
    constructor
    · intro d c exported
      exact (sound.required d c ((t.exported_finish ..).mp exported)).grow grows
    · intro d finished c
      rcases (t.finished_finish ..).mp finished with before | ⟨rfl, -⟩
      · exact grows.1 d c (sound.finished d before c)
      · exact grows.1 d c (backs c)
  | _ => exact sound

theorem Sound.writeAll {t : StatusTable} (sound : t.Sound) {ws : List Write}
    (backs : ∀ w ∈ ws, t.Backs w) : (t.writeAll ws).Sound := by
  induction ws generalizing t with
  | nil => exact sound
  | cons w others ih =>
    obtain ⟨first, rest⟩ := List.forall_mem_cons.mp backs
    exact ih (sound.write first) fun w member => (rest w member).grow (t.write_grows _)

theorem exported_writeAll (t : StatusTable) {ws : List Write}
    (unmarked : ∀ w ∈ ws, ∀ d c, w ≠ .markExported d c) (day : Day) (category : Category) :
    (t.writeAll ws).Exported day category ↔ t.Exported day category := by
  induction ws generalizing t with
  | nil => exact Iff.rfl
  | cons w others ih =>
    obtain ⟨first, rest⟩ := List.forall_mem_cons.mp unmarked
    refine (ih (t.write w) rest).trans ?_
    cases w with
    | markExported d c => exact absurd rfl (first d c)
    | setFinished d => exact t.exported_finish d day category
    | _ => exact Iff.rfl

end StatusTable

/-- What an export of the day has seen so far is true of the table, and what it has in a
transaction may be committed. -/
structure Informed (day : Day) (t : StatusTable) (seen : List Event) : Prop where
  known : ∀ r, Shown seen r → t.Exported r.1 r.2
  pending : ∀ w ∈ (openAfter seen).getD [], w.Concerns day ∧ t.Backs w ∧
    ∀ d c, w ≠ .markExported d c

theorem informed_nil (day : Day) (t : StatusTable) : Informed day t [] := by
  constructor
  · rintro r ⟨e, member, -⟩
    cases member
  · simp [openAfter]

theorem Informed.grow {day : Day} {t u : StatusTable} {seen : List Event}
    (informed : Informed day t seen) (grows : t.GrowsInto u) : Informed day u seen :=
  ⟨fun r shown => grows.1 _ _ (informed.known r shown), fun w member =>
    let ⟨concerns, backs, unmarked⟩ := informed.pending w member
    ⟨concerns, backs.grow grows, unmarked⟩⟩

theorem Informed.meets {day d : Day} {category : Category} {t : StatusTable} {seen : List Event}
    (informed : Informed day t seen) (met : Stage.Met d category seen) : t.Meets d category :=
  met.imp fun _ h => ⟨h.1, fun r hr => informed.known r (h.2 r hr)⟩

theorem Informed.asked {day : Day} {t : StatusTable} {seen : List Event} {r : Request}
    (informed : Informed day t seen) (justified : Justified day seen r) :
    ∀ w ∈ r.writes, w.Concerns day ∧ t.Backs w := by
  intro w member
  have reason := justified w member
  cases w with
  | markExported d c => exact ⟨reason.1, informed.meets reason.2.2.2⟩
  | setFinished d =>
    obtain ⟨rfl, shown⟩ := reason
    exact ⟨rfl, fun c => informed.known _ (shown c)⟩
  | _ => exact ⟨trivial, trivial⟩

section Event

variable {day : Day} {t : StatusTable} {seen : List Event} {e : Event}

theorem Informed.shows (informed : Informed day t seen) (justified : Justified day seen e.1) :
    ∀ w ∈ (openAfter seen).shows e, w.Concerns day ∧ t.Backs w := by
  intro w member
  rcases Transaction.shows_mem member with pending | asked
  · exact ⟨(informed.pending w pending).1, (informed.pending w pending).2.1⟩
  · exact informed.asked justified w asked

theorem Informed.learns (informed : Informed day t seen) (justified : Justified day seen e.1)
    (answers : (Books.mk t (openAfter seen)).Answers e) (d : Day) (c : Category)
    (shows : e.Shows d c) : ((Books.mk t (openAfter seen)).after e).table.Exported d c := by
  have grows := t.writeAll_grows ((openAfter seen).shows e)
  have reading (row : DayStatus) (same : some row = (Books.mk t (openAfter seen)).view d)
      (exported : row.exported c = true) :
      ((Books.mk t (openAfter seen)).after e).table.Exported d c := by
    have viewed : (t.writeAll ((openAfter seen).getD [])).Exported d c := by
      change ((Books.mk t (openAfter seen)).view.status d).exported c = true
      rwa [StatusTable.status, ← same]
    have unmarked := fun w member => (informed.pending w member).2.2
    exact grows.1 d c ((t.exported_writeAll unmarked d c).mp viewed)
  unfold Event.Shows at shows
  split at shows
  · obtain ⟨rfl, exported⟩ := shows
    exact reading _ answers exported
  · obtain ⟨rfl, exported⟩ := shows
    exact reading _ answers exported
  · obtain ⟨rfl, rfl⟩ := shows
    obtain ⟨-, -, closed, -⟩ := justified _ (List.mem_singleton_self _)
    simp only [Books.after, closed, Transaction.shows]
    exact (t.exported_mark ..).mpr (.inr ⟨rfl, rfl⟩)
  · exact shows.elim

theorem Informed.event (informed : Informed day t seen) (justified : Justified day seen e.1)
    (answers : (Books.mk t (openAfter seen)).Answers e) :
    Informed day ((Books.mk t (openAfter seen)).after e).table (seen ++ [e]) := by
  have grows := t.writeAll_grows ((openAfter seen).shows e)
  constructor
  · rintro r ⟨e', member, shows⟩
    rcases List.mem_append.mp member with earlier | now
    · exact grows.1 _ _ (informed.known r ⟨e', earlier, shows⟩)
    · cases List.mem_singleton.mp now
      exact informed.learns justified answers r.1 r.2 shows
  · intro w member
    rw [openAfter_append] at member
    rcases Transaction.after_mem member with earlier | asked
    · obtain ⟨concerns, backs, unmarked⟩ := informed.pending w earlier
      exact ⟨concerns, backs.grow grows, unmarked⟩
    · obtain ⟨concerns, backs⟩ := informed.asked justified w asked
      refine ⟨concerns, backs.grow grows, ?_⟩
      -- A mark is never made in a transaction.
      rintro d c rfl
      obtain ⟨-, isMark, closed, -⟩ := justified _ asked
      obtain ⟨r, answer⟩ := e
      cases isMark
      simp [closed, Transaction.after] at member

end Event
end ValidatorDays
