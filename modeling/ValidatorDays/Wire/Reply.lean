import ValidatorDays.Indexer.Http
import ValidatorDays.Wire.Rows
/-! Replies on the wire. A statement is answered by its rows or by the reason why there are
none, a request by a status and a body. -/
namespace ValidatorDays.Wire

open Json

def reply {α : Type} (decoder : Decoder α) : Decoder (Except String α)
  | .object [("rows", rows)] => .ok <$> decoder rows
  | .object [("refused", reason)] => .error <$> string reason
  | value => refuse "rows or a reason" value

def unreadable : String := "the answer cannot be read"

def ofLine {α : Type} (decoder : Decoder α) (line : String) : Except DatabaseError α :=
  match decodeText (reply decoder) line with
  | .ok (.ok rows) => .ok rows
  | .ok (.error reason) => .error (.refused reason)
  | .error _ => .error (.refused unreadable)

/-- Of a statement that changes something, only that it went well matters. -/
def noRows : Decoder Unit := fun _ => .ok ()

def response : Decoder (Except String Http.Response)
  | .object [("status", status), ("body", body)] =>
    return .ok ⟨(← integer .nat64 "a status" status).toNat, ← string body⟩
  | .object [("refused", reason)] => .error <$> string reason
  | value => refuse "a response or a reason" value

def ofResponseLine (q : IndexerQuery) (url line : String) : Except Report q.Rows :=
  match decodeText response line with
  | .ok (.ok answer) => Http.decode q url answer
  | .ok (.error reason) => .error ⟨[reason]⟩
  | .error _ => .error ⟨[unreadable]⟩

end ValidatorDays.Wire
