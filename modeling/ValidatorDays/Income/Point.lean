import ValidatorDays.Chain.Day
import ValidatorDays.Json.Decoder

namespace ValidatorDays

structure IncomePoint where
  day : Day
  rewards : Int
  endBalance : Option Int
  deriving DecidableEq, Repr

namespace IncomePoint

open Json

def members : List Member :=
  [.required "day" int32, .required "cl_rewards_gwei" int64,
    .voluntary "end_balance" (optional int64)]

def decode : Decoder IncomePoint := fun value => do
  match ← membersOf "a point of an income history" members value with
  | [day, rewards, endBalance] =>
    return ⟨⟨← int32 day⟩, ← int64 rewards, ← optional int64 endBalance⟩
  | _ => .error (.mismatch (.length 3))

def toJson (p : IncomePoint) : Json :=
  .object [("day", .int p.day.number), ("cl_rewards_gwei", .int p.rewards),
    ("end_balance", match p.endBalance with | some n => .int n | none => .null)]

end IncomePoint

abbrev IncomeHistory := List IncomePoint

namespace IncomeHistory

def decode : Json.Decoder IncomeHistory := Json.listOf IncomePoint.decode

def toJson (history : IncomeHistory) : Json := .list (history.map IncomePoint.toJson)

end IncomeHistory
end ValidatorDays
