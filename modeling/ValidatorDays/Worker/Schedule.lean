import ValidatorDays.Failure
/-! Work shared out over a number of places, against a clock. Jobs take the places in order
and line up for a look; one that is looked at starts, sleeps, or comes to its end. No job starts
once another has ended badly. -/
namespace ValidatorDays.Schedule

structure Job (ε : Type) where
  duration : Nat
  failure : Option ε

structure Running (ε : Type) where
  number : Nat
  finish : Nat
  failure : Option ε

/-- A job in its place that asks to be looked at. -/
inductive Ready (ε : Type) where
  | fresh (number : Nat) (job : Job ε)
  | woken (job : Running ε)

structure State (ε : Type) where
  now : Nat
  waiting : List (Nat × Job ε)
  ready : List (Ready ε)
  postponed : List (Running ε)
  asleep : List (Running ε)
  started : List Nat
  done : List Nat
  failed : Option ε

/-- What the runtime lets one task do before others have their turn: so many of the sleeps that are
over end in one round. -/
def endsPerRound : Nat := 128

/-- The farthest that a timer of the runtime is set, in milliseconds: thirty years of 365 days. A
longer sleep ends then. -/
def farthest : Nat := 946080000000

namespace State

variable {ε : Type}

def start (now : Nat) (jobs : List (Job ε)) : State ε :=
  ⟨now, jobs.zipIdx.map fun j => (j.2, j.1), [], [], [], [], [], none⟩

def taken (s : State ε) : Nat := s.ready.length + s.postponed.length + s.asleep.length

/-- Gives the free places to the jobs that wait. They line up behind the others. -/
def fill (places : Nat) (s : State ε) : State ε :=
  { s with
    waiting := s.waiting.drop (places - s.taken)
    ready := s.ready ++ (s.waiting.take (places - s.taken)).map fun j => .fresh j.1 j.2 }

def close (s : State ε) (job : Running ε) : State ε :=
  match job.failure with
  | none => { s with done := job.number :: s.done }
  | some e => { s with failed := s.failed.or (some e) }

/-- Looks at a job that started while the round has room for `room` more ends. Gives the room
that is left. -/
def look (s : State ε) (room : Nat) (job : Running ε) : State ε × Nat :=
  if room = 0 then ({ s with postponed := job :: s.postponed }, 0)
  else if s.now < job.finish then ({ s with asleep := s.asleep ++ [job] }, room)
  else (s.close job, room - 1)

def begin (s : State ε) (room number : Nat) (job : Job ε) : State ε × Nat :=
  let running : Running ε := ⟨number, s.now + min job.duration farthest, job.failure⟩
  if s.failed.isSome then (s, room)
  else if job.duration = 0 then ({ s with started := number :: s.started }.close running, room)
  else { s with started := number :: s.started }.look room running

def visit (s : State ε) (room : Nat) : Ready ε → State ε × Nat
  | .fresh number job => s.begin room number job
  | .woken job => s.look room job

/-- Fills the places and looks at the first in line, until nobody is in line. -/
def lookAround (places : Nat) : Nat → Nat → State ε → State ε
  | 0, _, s => s
  | fuel + 1, room, s =>
    match (s.fill places).ready with
    | [] => s.fill places
    | first :: rest =>
      let next := { s.fill places with ready := rest }.visit room first
      lookAround places fuel next.2 next.1

def round (places : Nat) (s : State ε) : State ε :=
  s.lookAround places (s.waiting.length + s.ready.length + 1) endsPerRound

def isOver (s : State ε) : Bool := s.postponed.isEmpty && s.asleep.isEmpty

def resume (s : State ε) : State ε :=
  { s with ready := s.postponed.map .woken, postponed := [] }

def nextEnd? (s : State ε) : Option Nat := (s.asleep.map (·.finish)).min?

def moveTo (s : State ε) (time : Nat) : State ε :=
  { s with
    now := time
    ready := (s.asleep.filter (·.finish ≤ time)).map .woken
    asleep := s.asleep.filter (time < ·.finish) }

/-- Round after round, at most `fuel`. Between two rounds the deadline is looked at. -/
def run (places deadline : Nat) : Nat → State ε → State ε
  | 0, s => s
  | fuel + 1, s =>
    let s := s.round places
    if s.isOver || deadline ≤ s.now then s
    else if !s.postponed.isEmpty then s.resume.run places deadline fuel
    else
      match s.nextEnd? with
      | none => s
      | some time =>
        if deadline < time then { s with now := deadline }
        else (s.moveTo time).run places deadline fuel

end State

inductive Result (ε : Type) where
  | completed (order : List Nat)
  | failed (cause : ε)
  | late
  deriving DecidableEq, Repr

structure Report (ε : Type) where
  result : Result ε
  started : List Nat
  now : Nat

variable {ε : Type}

def State.result (s : State ε) : Result ε :=
  if s.isOver then
    match s.failed with
    | some e => .failed e
    | none => .completed s.done.reverse
  else .late

/-- A job is postponed, put to sleep, postponed again and ended: no more rounds than that. -/
def roundsPerJob : Nat := 4

/-- Runs the jobs from `now` on. Work that is over at the deadline counts; of work that is
not, nothing does. -/
def run (places deadline now : Nat) (jobs : List (Job ε)) : Report ε :=
  let last := (State.start now jobs).run (max places 1) deadline
    (roundsPerJob * jobs.length + 1)
  ⟨last.result, last.started.reverse, last.now⟩

end ValidatorDays.Schedule
