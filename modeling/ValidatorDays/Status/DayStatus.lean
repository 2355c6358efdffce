import ValidatorDays.Status.Category

namespace ValidatorDays

/-- A flag for every category, and one for the day as a whole. -/
structure DayStatus where
  finished : Bool
  exported : Category → Bool

namespace DayStatus

def blank : DayStatus := ⟨false, fun _ => false⟩

instance : Inhabited DayStatus := ⟨blank⟩

def allExported (s : DayStatus) : Bool := Category.all.all s.exported

def isComplete (s : DayStatus) : Bool := s.finished && s.allExported

def missing (s : DayStatus) : List Category := Category.all.filter fun c => !s.exported c

def mark (s : DayStatus) (c : Category) : DayStatus :=
  { s with exported := fun c' => decide (c' = c) || s.exported c' }

def finish (s : DayStatus) : DayStatus := { s with finished := true }

end DayStatus
end ValidatorDays
