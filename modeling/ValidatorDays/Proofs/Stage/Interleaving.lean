import Mathlib
import ValidatorDays.Proofs.Stage.Attempts
import ValidatorDays.Proofs.Stage.Soundness
/-! Exports that share one table of statuses. Any number of them may be under way, for any days,
and between any two statements of one there may be statements of the others. Nothing is taken back,
and the table is sound at every moment. -/
namespace ValidatorDays

open Program Relation

structure Session where
  seen : List Event
  rest : Program DayStatus

/-- The rows, and the exports that work on them. One that is given up is never answered again. -/
structure System where
  table : StatusTable
  sessions : List Session

namespace System

def initial : System := ⟨.empty, []⟩

/-- Somebody begins to export a day, or one request of one export is answered. -/
inductive Step : System → System → Prop where
  | begins (s : System) (settings : Settings) (day : Day) :
      Step s ⟨s.table, s.sessions ++ [⟨[], exportDay settings day⟩]⟩
  | answered {t : StatusTable} {left right : List Session} {seen : List Event} {r : Request}
      {next : r.Answer → Program DayStatus} (answer : r.Answer)
      (answers : (Books.mk t (openAfter seen)).Answers ⟨r, answer⟩) :
      Step ⟨t, left ++ ⟨seen, .ask r next⟩ :: right⟩
        ⟨((Books.mk t (openAfter seen)).after ⟨r, answer⟩).table,
          left ++ ⟨seen ++ [⟨r, answer⟩], next answer⟩ :: right⟩

end System

/-- The export knows what it acts on, and goes on to act with reasons only. -/
def Session.Good (t : StatusTable) (x : Session) : Prop :=
  ∃ day, Informed day t x.seen ∧
    x.rest.Keeps (Justified day) (fun _ _ => True) (fun _ _ => True) x.seen

theorem Session.Good.grow {t u : StatusTable} {x : Session} (good : x.Good t)
    (grows : t.GrowsInto u) : x.Good u :=
  good.imp fun _ h => ⟨h.1.grow grows, h.2⟩

namespace System

structure Invariant (s : System) : Prop where
  sound : s.table.Sound
  good : ∀ x ∈ s.sessions, x.Good s.table

theorem initial_invariant : initial.Invariant := ⟨StatusTable.sound_empty, by simp [initial]⟩

theorem Step.grows {s s' : System} (step : Step s s') : s.table.GrowsInto s'.table := by
  cases step with
  | begins _ settings day => exact .refl _
  | answered answer answers => exact StatusTable.writeAll_grows _ _

theorem Step.preserves {s s' : System} (step : Step s s') (invariant : s.Invariant) :
    s'.Invariant := by
  have grows := step.grows
  cases step with
  | begins _ settings day =>
    refine ⟨invariant.sound, fun x member => ?_⟩
    rcases List.mem_append.mp member with old | new
    · exact invariant.good x old
    · cases List.mem_singleton.mp new
      exact ⟨day, informed_nil day _, exportDay_keeps settings day⟩
  | @answered t left right seen r next answer answers =>
    obtain ⟨day, informed, justified, goesOn⟩ :=
      invariant.good ⟨seen, .ask r next⟩ (by simp)
    constructor
    · exact invariant.sound.writeAll fun w member => (informed.shows justified w member).2
    · intro x member
      -- The others only see that the table has grown.
      rcases List.mem_append.mp member with other | member
      · exact (invariant.good x (by simp [other])).grow grows
      rcases List.mem_cons.mp member with rfl | other
      · exact ⟨day, informed.event justified answers, goesOn answer⟩
      · exact (invariant.good x (by simp [other])).grow grows

theorem reachable_invariant {s : System} (reached : ReflTransGen Step initial s) :
    s.Invariant := by
  induction reached with
  | refl => exact initial_invariant
  | tail _ step ih => exact step.preserves ih

theorem steps_grow {s s' : System} (steps : ReflTransGen Step s s') :
    s.table.GrowsInto s'.table := by
  induction steps with
  | refl => exact .refl _
  | tail _ step ih => exact ih.trans step.grows

/-- However exports interleave, no flag is ever taken back, and every flag rests on those it
requires: a finished day on all its categories, income on balances and transfers, and totals on
income, each of the day itself and of the day before. -/
theorem interleaved_sound {s s' : System} (reached : ReflTransGen Step initial s)
    (onward : ReflTransGen Step s s') (day : Day) :
    ((∀ category, s.table.Exported day category → s'.table.Exported day category) ∧
      (s.table.Finished day → s'.table.Finished day)) ∧
    (s'.table.Finished day → ∀ category, s'.table.Exported day category) ∧
    (s'.table.Exported day .consensusRewards →
      s'.table.Exported day .balance ∧ s'.table.Exported day .withdrawalsDeposits ∧
      (Day.genesis < day → s'.table.Exported ⟨day.number - 1⟩ .balance ∧
        s'.table.Exported ⟨day.number - 1⟩ .withdrawalsDeposits)) ∧
    (s'.table.Exported day .totalPerformance →
      s'.table.Exported day .consensusRewards ∧ s'.table.Exported day .executionRewards ∧
      (Day.genesis < day → s'.table.Exported ⟨day.number - 1⟩ .consensusRewards ∧
        s'.table.Exported ⟨day.number - 1⟩ .executionRewards)) := by
  have grows := steps_grow onward
  have sound := (reachable_invariant (reached.trans onward)).sound
  refine ⟨⟨grows.1 day, grows.2 day⟩, sound.finished day, fun income => ?_, fun totals => ?_⟩
  · exact (sound.required day _ income).consensusRewards
  · exact (sound.required day _ totals).totalPerformance

theorem steps_of_runs {p : Program DayStatus} {trace : List Event} {result : Outcome DayStatus}
    (run : Runs p trace result) {t : StatusTable} {left right : List Session} {seen : List Event}
    (agrees : (Books.mk t (openAfter seen)).Agrees trace) :
    ReflTransGen Step ⟨t, left ++ ⟨seen, p⟩ :: right⟩
      ⟨((Books.mk t (openAfter seen)).afterAll trace).table,
        left ++ ⟨seen ++ trace, ofOutcome result⟩ :: right⟩ := by
  induction run generalizing t seen with
  | done a =>
    rw [List.append_nil]
    exact .refl
  | fail cause =>
    rw [List.append_nil]
    exact .refl
  | @ask r next trace result answer rest ih =>
    obtain ⟨answers, others⟩ := agrees
    have moved : (Books.mk t (openAfter seen)).after ⟨r, answer⟩ =
        Books.mk ((Books.mk t (openAfter seen)).after ⟨r, answer⟩).table
          (openAfter (seen ++ [⟨r, answer⟩])) := by
      rw [openAfter_append]
      rfl
    rw [moved] at others
    have further := ih others
    rw [List.append_assoc] at further
    refine .head (.answered answer answers) ?_
    rw [Books.afterAll, List.foldl_cons, moved]
    exact further

theorem steps_of_attempt {settings : Settings} {day : Day} {t u : StatusTable}
    {trace : List Event} {result : Outcome DayStatus}
    (attempt : Attempt settings day t trace result u) (others : List Session) :
    ReflTransGen Step ⟨t, others⟩ ⟨u, others ++ [⟨trace, ofOutcome result⟩]⟩ := by
  obtain ⟨run, agrees, rfl⟩ := attempt
  exact .head (.begins ⟨t, others⟩ settings day) (steps_of_runs run agrees)

theorem interleaved_sound_calm : ∃ s, ReflTransGen Step initial s ∧ s.table.Finished ⟨1⟩ ∧
    s.table.Exported ⟨1⟩ .balance ∧ s.table.Exported ⟨0⟩ .executionRewards := by
  have calm := Books.calm_honest 0
  obtain ⟨_, _, first⟩ := attempt_given calm .oneWindow ⟨0⟩ .empty
  obtain ⟨_, _, second⟩ := attempt_given calm .oneWindow ⟨1⟩ (StatusTable.empty.given _ _ ⟨0⟩)
  have reached := (steps_of_attempt first []).trans (steps_of_attempt second _)
  have finished : ((StatusTable.empty.given (Books.calmAnswer 0) .oneWindow ⟨0⟩).given
      (Books.calmAnswer 0) .oneWindow ⟨1⟩).Finished ⟨1⟩ := by
    unfold StatusTable.Finished
    cbv
  obtain ⟨-, all, income, totals⟩ := interleaved_sound reached .refl ⟨1⟩
  exact ⟨_, reached, finished, (income (all finished _)).1,
    ((totals (all finished _)).2.2 (by decide)).2⟩

end System
end ValidatorDays
