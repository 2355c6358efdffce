import Mathlib.Algebra.Ring.Nat
import Mathlib.Data.List.Basic
import Mathlib.Order.Nat
import ValidatorDays.Worker.Schedule
/-! Rounds come to an end. A round leaves nobody in line, and no free place while a job waits; and
there are never more rounds than it takes to put each job to sleep and to end it, so a run stops
only when all is over or at the deadline. -/
namespace ValidatorDays.Schedule

variable {ε : Type}

/-- The rounds that may be needed for a job in line: one to put it to sleep, one to end it. -/
def Ready.rounds (now : Nat) : Ready ε → Nat
  | .fresh .. => 2
  | .woken job => if now < job.finish then 2 else 1

theorem Ready.rounds_le (now : Nat) (first : Ready ε) : first.rounds now ≤ 2 := by
  cases first with
  | fresh number job => exact Nat.le_refl _
  | woken job => simp only [rounds]; split <;> omega

namespace State

def withFirst (s : State ε) (first : Ready ε) : State ε := { s with ready := first :: s.ready }

theorem withFirst_tail {s : State ε} {first : Ready ε} {rest : List (Ready ε)}
    (line : s.ready = first :: rest) : withFirst { s with ready := rest } first = s := by
  cases s
  cases line
  rfl

section Frames

variable (s : State ε) (places room : Nat)

@[simp] theorem close_now (job : Running ε) : (s.close job).now = s.now := by
  unfold close; cases job.failure <;> rfl

@[simp] theorem close_waiting (job : Running ε) : (s.close job).waiting = s.waiting := by
  unfold close; cases job.failure <;> rfl

@[simp] theorem close_ready (job : Running ε) : (s.close job).ready = s.ready := by
  unfold close; cases job.failure <;> rfl

@[simp] theorem close_postponed (job : Running ε) : (s.close job).postponed = s.postponed := by
  unfold close; cases job.failure <;> rfl

@[simp] theorem close_asleep (job : Running ε) : (s.close job).asleep = s.asleep := by
  unfold close; cases job.failure <;> rfl

@[simp] theorem close_started (job : Running ε) : (s.close job).started = s.started := by
  unfold close; cases job.failure <;> rfl

theorem visit_frame (first : Ready ε) :
    (s.visit room first).1.now = s.now ∧ (s.visit room first).1.waiting = s.waiting ∧
      (s.visit room first).1.ready = s.ready := by
  cases first with
  | fresh number job =>
    simp only [visit, begin, look]
    (repeat' split) <;> simp
  | woken job =>
    simp only [visit, look]
    (repeat' split) <;> simp

end Frames

variable {places room fuel : Nat} {s : State ε}

theorem fill_count (s : State ε) (places : Nat) :
    (s.fill places).waiting.length + (s.fill places).ready.length =
      s.waiting.length + s.ready.length := by
  simp only [fill, List.length_drop, List.length_append, List.length_map, List.length_take]
  omega

/-- Nobody is in line, and who waits finds no place. -/
def Quiet (places : Nat) (s : State ε) : Prop :=
  s.ready = [] ∧ (s.waiting = [] ∨ places ≤ s.taken)

theorem fill_quiet (nobody : (s.fill places).ready = []) : Quiet places (s.fill places) := by
  refine ⟨nobody, ?_⟩
  obtain ⟨line, moved⟩ := List.append_eq_nil_iff.mp nobody
  have noneMoved : s.waiting.take (places - s.taken) = [] := List.map_eq_nil_iff.mp moved
  obtain full | empty := List.take_eq_nil_iff.mp noneMoved
  · right
    have same : (s.fill places).taken = s.taken := by simp only [taken, nobody, line]; rfl
    omega
  · left
    rw [fill, empty, List.drop_nil]

theorem lookAround_quiet (enough : s.waiting.length + s.ready.length < fuel) :
    Quiet places (s.lookAround places fuel room) := by
  induction fuel generalizing s room with
  | zero => exact absurd enough (Nat.not_lt_zero _)
  | succ fuel ih =>
    rw [lookAround]
    have count := s.fill_count places
    split
    next nobody => exact fill_quiet nobody
    next first rest line =>
      obtain ⟨-, waiting, ready⟩ := visit_frame { s.fill places with ready := rest } room first
      apply ih
      rw [waiting, ready]
      rw [line, List.length_cons] at count
      show (s.fill places).waiting.length + rest.length < fuel
      omega

theorem round_quiet (s : State ε) (places : Nat) : Quiet places (s.round places) :=
  lookAround_quiet (Nat.lt_succ_self _)

theorem lookAround_now : (s.lookAround places fuel room).now = s.now := by
  induction fuel generalizing s room with
  | zero => rfl
  | succ fuel ih =>
    rw [lookAround]
    split
    next nobody => rfl
    next first rest line => exact ih.trans (visit_frame _ room first).1

theorem run_now_le {deadline : Nat} (early : s.now ≤ deadline) :
    (s.run places deadline fuel).now ≤ deadline := by
  induction fuel generalizing s with
  | zero => exact early
  | succ fuel ih =>
    have rounded : (s.round places).now ≤ deadline := lookAround_now.trans_le early
    rw [run]
    split
    next stop => exact rounded
    split
    next postponed => exact ih rounded
    split
    next never => exact rounded
    next time next =>
      split
      next late => exact Nat.le_refl _
      next inTime => exact ih (Nat.not_lt.mp inTime)

def roundsLeft (s : State ε) : Nat :=
  2 * s.waiting.length + (s.ready.map (Ready.rounds s.now)).sum +
    (s.postponed.map fun job => Ready.rounds s.now (.woken job)).sum + s.asleep.length

theorem fill_roundsLeft (s : State ε) (places : Nat) :
    (s.fill places).roundsLeft = s.roundsLeft := by
  have fresh : ∀ jobs : List (Nat × Job ε),
      ((jobs.map fun j => Ready.fresh j.1 j.2).map (Ready.rounds s.now)).sum = 2 * jobs.length := by
    intro jobs
    induction jobs with
    | nil => rfl
    | cons j jobs ih =>
      simp only [List.map_cons, List.sum_cons, ih, Ready.rounds, List.length_cons]
      omega
  simp only [roundsLeft, fill, List.map_append, List.sum_append, fresh, List.length_drop,
    List.length_take]
  omega

theorem withFirst_roundsLeft (s : State ε) (first : Ready ε) :
    (s.withFirst first).roundsLeft = s.roundsLeft + first.rounds s.now := by
  simp only [roundsLeft, withFirst, List.map_cons, List.sum_cons]
  omega

theorem close_roundsLeft (s : State ε) (job : Running ε) :
    (s.close job).roundsLeft = s.roundsLeft := by
  simp only [roundsLeft, close_waiting, close_ready, close_now, close_postponed, close_asleep]

theorem look_roundsLeft (s : State ε) (room : Nat) (job : Running ε) :
    (s.look room job).1.roundsLeft ≤ s.roundsLeft + Ready.rounds s.now (.woken job) ∧
      (0 < room →
        (s.look room job).1.roundsLeft < s.roundsLeft + Ready.rounds s.now (.woken job)) := by
  unfold look
  split
  next full =>
    simp only [roundsLeft, List.map_cons, List.sum_cons]
    omega
  split
  next early =>
    have two : Ready.rounds s.now (.woken job) = 2 := if_pos early
    simp only [two, roundsLeft, List.length_append, List.length_singleton]
    omega
  next due =>
    have one : Ready.rounds s.now (.woken job) = 1 := if_neg due
    rw [one, close_roundsLeft]
    omega

theorem visit_roundsLeft (s : State ε) (room : Nat) (first : Ready ε) :
    (s.visit room first).1.roundsLeft ≤ s.roundsLeft + first.rounds s.now ∧
      (0 < room → (s.visit room first).1.roundsLeft < s.roundsLeft + first.rounds s.now) := by
  cases first with
  | woken job => exact look_roundsLeft s room job
  | fresh number job =>
    have two : Ready.rounds s.now (.fresh number job) = 2 := rfl
    have same : ∀ numbers, roundsLeft { s with started := numbers } = s.roundsLeft := fun _ => rfl
    rw [two, visit, begin]
    split
    · exact ⟨Nat.le_add_right _ _, fun _ => Nat.lt_add_of_pos_right Nat.two_pos⟩
    split
    · rw [close_roundsLeft, same]
      omega
    · have looked := look_roundsLeft { s with started := number :: s.started } room
        ⟨number, s.now + min job.duration farthest, job.failure⟩
      have atMost := Ready.rounds_le s.now
        (.woken ⟨number, s.now + min job.duration farthest, job.failure⟩)
      rw [same] at looked
      exact ⟨looked.1.trans (Nat.add_le_add_left atMost _),
        fun busy => (looked.2 busy).trans_le (Nat.add_le_add_left atMost _)⟩

theorem lookAround_roundsLeft : (s.lookAround places fuel room).roundsLeft ≤ s.roundsLeft := by
  induction fuel generalizing s room with
  | zero => exact Nat.le_refl _
  | succ fuel ih =>
    rw [lookAround, ← s.fill_roundsLeft places]
    split
    next nobody => exact Nat.le_refl _
    next first rest line =>
      have visited := (visit_roundsLeft { s.fill places with ready := rest } room first).1
      rw [← withFirst_roundsLeft, withFirst_tail line] at visited
      exact ih.trans visited

theorem round_roundsLeft (s : State ε) (places : Nat) :
    (s.round places).roundsLeft ≤ s.roundsLeft := lookAround_roundsLeft

theorem round_roundsLeft_lt (places : Nat) (somebody : s.ready ≠ []) :
    (s.round places).roundsLeft < s.roundsLeft := by
  rw [round, lookAround, ← s.fill_roundsLeft places]
  split
  next nobody => exact absurd (List.append_eq_nil_iff.mp nobody).1 somebody
  next first rest line =>
    have visited := (visit_roundsLeft { s.fill places with ready := rest } endsPerRound first).2
      (by decide)
    rw [← withFirst_roundsLeft, withFirst_tail line] at visited
    exact lookAround_roundsLeft.trans_lt visited

theorem resume_roundsLeft (nobody : s.ready = []) : s.resume.roundsLeft = s.roundsLeft := by
  simp only [roundsLeft, resume, nobody, List.map_map, List.map_nil, List.sum_nil]
  show _ + (s.postponed.map fun job => Ready.rounds s.now (.woken job)).sum + 0 + _ = _
  omega

theorem nextEnd?_mem {time : Nat} (next : s.nextEnd? = some time) :
    (∃ job ∈ s.asleep, job.finish = time) ∧ ∀ job ∈ s.asleep, time ≤ job.finish := by
  obtain ⟨member, least⟩ := List.min?_eq_some_iff.mp next
  refine ⟨List.mem_map.mp member, fun job asleep => least _ (List.mem_map_of_mem asleep)⟩

theorem nextEnd?_eq_none (absent : s.nextEnd? = none) : s.asleep = [] :=
  List.map_eq_nil_iff.mp (List.min?_eq_none_iff.mp absent)

theorem moveTo_ready {time : Nat} (next : s.nextEnd? = some time) :
    (s.moveTo time).ready ≠ [] := by
  obtain ⟨⟨job, asleep, due⟩, -⟩ := nextEnd?_mem next
  have woken : job ∈ s.asleep.filter (·.finish ≤ time) :=
    List.mem_filter.mpr ⟨asleep, decide_eq_true due.le⟩
  exact List.ne_nil_of_mem (List.mem_map_of_mem woken)

theorem moveTo_roundsLeft (time : Nat) (nobody : s.ready = []) (noPostponed : s.postponed = []) :
    (s.moveTo time).roundsLeft = s.roundsLeft := by
  have due : ∀ jobs : List (Running ε), (∀ job ∈ jobs, job.finish ≤ time) →
      ((jobs.map Ready.woken).map (Ready.rounds time)).sum = jobs.length := by
    intro jobs ended
    induction jobs with
    | nil => rfl
    | cons job jobs ih =>
      obtain ⟨first, others⟩ := List.forall_mem_cons.mp ended
      have one : Ready.rounds time (.woken job) = 1 := if_neg (by omega)
      simp only [List.map_cons, List.sum_cons, one, ih others, List.length_cons]
      omega
  have woken := due (s.asleep.filter (·.finish ≤ time)) fun job member =>
    of_decide_eq_true (List.mem_filter.mp member).2
  have parted := List.length_eq_length_filter_add (l := s.asleep) (·.finish ≤ time)
  have rest : s.asleep.filter (fun job => !decide (job.finish ≤ time)) =
      s.asleep.filter (time < ·.finish) :=
    List.filter_congr fun job _ => by rw [← decide_not, decide_eq_decide]; omega
  rw [rest] at parted
  simp only [roundsLeft, moveTo, nobody, noPostponed, woken, List.map_nil, List.sum_nil]
  omega

/-- A run with rounds enough stops when all is over, or when it is late. -/
theorem run_stops {deadline : Nat} (enough : (s.round places).roundsLeft < fuel) :
    Quiet places (s.run places deadline fuel) ∧
      ((s.run places deadline fuel).isOver = true ∨
        deadline ≤ (s.run places deadline fuel).now) := by
  induction fuel generalizing s with
  | zero => exact absurd enough (Nat.not_lt_zero _)
  | succ fuel ih =>
    have quiet := s.round_quiet places
    rw [run]
    split
    next stop =>
      rw [Bool.or_eq_true, decide_eq_true_eq] at stop
      exact ⟨quiet, stop⟩
    next goOn =>
      rw [Bool.or_eq_true, decide_eq_true_eq, not_or] at goOn
      split
      next postponed =>
        apply ih
        have somebody : (s.round places).resume.ready ≠ [] := by
          simpa [resume] using postponed
        have nearer := round_roundsLeft_lt places somebody
        rw [resume_roundsLeft quiet.1] at nearer
        omega
      next all =>
        have noPostponed : (s.round places).postponed = [] := by simpa using all
        split
        next never =>
          have finished : (s.round places).isOver = true := by
            simp [isOver, noPostponed, nextEnd?_eq_none never]
          exact absurd finished goOn.1
        next time next =>
          split
          next late => exact ⟨quiet, .inr (Nat.le_refl _)⟩
          next intime =>
            apply ih
            have nearer := round_roundsLeft_lt places (moveTo_ready next)
            rw [moveTo_roundsLeft time quiet.1 noPostponed] at nearer
            omega

end State

end ValidatorDays.Schedule
