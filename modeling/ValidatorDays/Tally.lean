import ValidatorDays.Fault

namespace ValidatorDays

/-- The entry of a key. Of several, the last one counts. -/
def lastFor? {κ β : Type} [DecidableEq κ] (key : κ) (entries : List (κ × β)) : Option β :=
  entries.foldl (fun found entry => if entry.1 = key then some entry.2 else found) none

/-- One entry for each key, in ascending order of the keys. -/
abbrev Tally (β : Type) := List (Int × β)

namespace Tally

variable {β : Type}

def change (key : Int) (f : Option β → Checked β) : Tally β → Checked (Tally β)
  | [] => return [(key, ← f none)]
  | (k, b) :: rest =>
    if key < k then return (key, ← f none) :: (k, b) :: rest
    else if key = k then return (k, ← f (some b)) :: rest
    else return (k, b) :: (← change key f rest)

end Tally
end ValidatorDays
