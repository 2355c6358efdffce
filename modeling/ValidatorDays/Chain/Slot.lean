import ValidatorDays.Text.Integer
import ValidatorDays.Chain.Instant
/-! Slots and epochs of the beacon chain: a slot every twelve seconds from genesis on,
thirty two slots to an epoch. Both count below zero before genesis. -/
namespace ValidatorDays

abbrev ValidatorIndex := Int

def secondsPerSlot : Int := 12
def slotsPerEpoch : Int := 32
def epochsPerDay : Int := 225

/-- 2020-12-01 12:00:23 UTC. -/
def genesis : Instant := .ofSeconds 1606824023

structure Slot where
  number : Int
  deriving DecidableEq, Repr

structure Epoch where
  number : Int
  deriving DecidableEq, Repr

namespace Slot

def text (s : Slot) : String := intText s.number

def plus (s : Slot) (n : Int) : Checked Slot := return ⟨← Bounds.int64.check (s.number + n)⟩

def minus (s : Slot) (n : Int) : Checked Slot := return ⟨← Bounds.int64.check (s.number - n)⟩

def time (s : Slot) : Checked Instant := do
  genesis.later (← Bounds.int64.check (s.number * secondsPerSlot))

/-- The latest slot that has begun. -/
def ofInstant (t : Instant) : Slot := ⟨(t.secondsSince genesis) / secondsPerSlot⟩

def epoch (s : Slot) : Epoch := ⟨s.number / slotsPerEpoch⟩

def isFirstOfEpoch (s : Slot) : Bool := s.number.tmod slotsPerEpoch == 0

def read (text : String) : Except IntegerError Slot := return ⟨← Bounds.int64.read text⟩

end Slot

namespace Epoch

instance : LE Epoch := ⟨fun a b => a.number ≤ b.number⟩
instance : LT Epoch := ⟨fun a b => a.number < b.number⟩
instance (a b : Epoch) : Decidable (a ≤ b) := inferInstanceAs (Decidable (a.number ≤ b.number))
instance (a b : Epoch) : Decidable (a < b) := inferInstanceAs (Decidable (a.number < b.number))

def text (e : Epoch) : String := intText e.number

def plus (e : Epoch) (n : Int) : Checked Epoch := return ⟨← Bounds.int64.check (e.number + n)⟩

def minus (e : Epoch) (n : Int) : Checked Epoch := return ⟨← Bounds.int64.check (e.number - n)⟩

def firstSlot (e : Epoch) : Checked Slot :=
  return ⟨← Bounds.int64.check (e.number * slotsPerEpoch)⟩

def time (e : Epoch) : Checked Instant := do (← e.firstSlot).time

end Epoch
end ValidatorDays
