import ValidatorDays.Bounds

namespace ValidatorDays

/-- A moment, in nanoseconds since 1970. -/
structure Instant where
  nanoseconds : Int
  deriving DecidableEq, Repr

namespace Instant

def nanosecondsPerSecond : Int := 1000000000

def ofSeconds (seconds : Int) : Instant := ⟨seconds * nanosecondsPerSecond⟩

def seconds (t : Instant) : Int := t.nanoseconds / nanosecondsPerSecond

instance : LE Instant := ⟨fun s t => s.nanoseconds ≤ t.nanoseconds⟩
instance : LT Instant := ⟨fun s t => s.nanoseconds < t.nanoseconds⟩
instance (s t : Instant) : Decidable (s ≤ t) :=
  inferInstanceAs (Decidable (s.nanoseconds ≤ t.nanoseconds))
instance (s t : Instant) : Decidable (s < t) :=
  inferInstanceAs (Decidable (s.nanoseconds < t.nanoseconds))

/-- The whole seconds the calendar has dates for. -/
def calendar : Bounds := ⟨-8334601228800, 8210266876799⟩

def span : Bounds := ⟨-9223372036854775, 9223372036854775⟩

def later (t : Instant) (seconds : Int) : Checked Instant :=
  if seconds ∈ span ∧ t.seconds + seconds ∈ calendar then
    .ok ⟨t.nanoseconds + seconds * nanosecondsPerSecond⟩
  else .error .dateOutOfRange

/-- Whole seconds from `s` to `t`, cut towards zero. -/
def secondsSince (t s : Instant) : Int :=
  (t.nanoseconds - s.nanoseconds).tdiv nanosecondsPerSecond

def secondsPerDay : Int := 86400

end Instant
end ValidatorDays
