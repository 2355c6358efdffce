import ValidatorDays.Decimal.Text
/-! Spans of time in text: the largest unit that gives one or more, and as many digits
after the point as there are. -/
namespace ValidatorDays

structure Span where
  nanoseconds : Nat
  deriving DecidableEq, Repr

namespace Span

def ofSeconds (seconds : Nat) : Span := ⟨seconds * 1000000000⟩
def ofMilliseconds (milliseconds : Nat) : Span := ⟨milliseconds * 1000000⟩

def seconds (s : Span) : Nat := s.nanoseconds / 1000000000

/-- Digits of a unit after the point, and its name. -/
def unit (s : Span) : Nat × String :=
  if 1000000000 ≤ s.nanoseconds then (9, "s")
  else if 1000000 ≤ s.nanoseconds then (6, "ms")
  else if 1000 ≤ s.nanoseconds then (3, "µs")
  else (0, "ns")

def text (s : Span) : String :=
  (Decimal.mk s.nanoseconds s.unit.1).render ++ s.unit.2

end Span
end ValidatorDays
