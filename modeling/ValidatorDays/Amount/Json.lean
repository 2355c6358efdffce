import ValidatorDays.Amount.Basic
import ValidatorDays.Json.Decoder
import ValidatorDays.Json.Writer
/-! Money in JSON. Both kinds are written as text; gwei are also read as a number. -/
namespace ValidatorDays.Amount

open Json

def toJson {d : Denomination} (a : Amount d) : Json := .text a.text

def gweiWanted : String :=
  "a number, or string of number, representing some amount of ETH in Gwei"

def gwei : Decoder Gwei
  | .text s =>
    match Bounds.int64.read s with
    | .ok n => .ok ⟨n⟩
    | .error e =>
      .error (.mismatch (.value
        (.text ("unexpected value: " ++ s ++ ", error: " ++ e.message))
        "a number as string: \"32000000000\", which fits within i64"))
  | value => Amount.mk <$> integer .int64 gweiWanted value

def wei : Decoder Wei
  | .text s =>
    match Bounds.int128.read s with
    | .ok n => .ok ⟨n⟩
    | .error e => .error (.mismatch (.refused e.message))
  | value => refuse "a string" value

end ValidatorDays.Amount
