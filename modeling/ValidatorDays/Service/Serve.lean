import ValidatorDays.Work.Program
/-! Relays, prices and cache are tables of the database: what is asked of them becomes
statements. -/
namespace ValidatorDays

namespace Prices

def isUsd (currency : String) : Bool := currency.toList.map Char.toLower == ['u', 's', 'd']

def latest (currency : String) : Program Decimal := do
  if isUsd currency then
    match ← (Program.query .latestPrice).mapFailure .asReport with
    | some usd => return usd
    | none => .fail (.report ⟨["no eth price stored yet"]⟩)
  else .fail (.report ⟨["no eth price feed for currency " ++ currency]⟩)

end Prices

namespace Relays

def invalidBid (hash : BlockHash) (bid : String) (e : IntegerError) : Report :=
  ⟨["invalid bid " ++ bid ++ " for " ++ hash, e.message]⟩

def readBid (hash : BlockHash) (bid : String) : Except Report (BlockHash × Wei) :=
  match Bounds.int128.read bid with
  | .ok n => .ok (hash, ⟨n⟩)
  | .error e => .error (invalidBid hash bid e)

def distinct : List (BlockHash × Wei) → List (BlockHash × Wei)
  | [] => []
  | (hash, bid) :: rest =>
    if rest.any (·.1 = hash) then distinct rest else (hash, bid) :: distinct rest

def bribes (hashes : List BlockHash) : Program (List (BlockHash × Wei)) := do
  if hashes = [] then return []
  let rows ← (Program.query (.relayBids hashes)).mapFailure .asReport
  let bids ← Program.ofReport (rows.mapM fun (hash, bid) => readBid hash bid)
  return distinct bids

end Relays

namespace Cache

/-- The oldest moment an entry may be from. -/
def oldest (now : Instant) (maxAge : Span) : Outcome Instant :=
  if (maxAge.seconds : Int) ≤ Instant.span.greatest then
    Outcome.ofChecked (now.later (-maxAge.seconds))
  else .error (.report ⟨["Source duration value is out of range for the target type"]⟩)

def find (key : String) (maxAge : Span) : Program (Option Json) :=
  .ask .now fun now => do
    let oldest ← oldest now maxAge
    (Program.query (.cached key oldest)).mapFailure .asReport

def store (key : String) (value : Json) : Program Unit :=
  (Program.write (.storeCached key value)).mapFailure .asReport

def storeAll : List (String × Json) → Program Nat
  | [] => return 0
  | (key, value) :: rest => do
    match ← (store key value).attempt with
    | .ok () => storeAll rest
    | .error _ => return (← storeAll rest) + 1

end Cache

/-- What a service answers when the work behind it came to that. A fault stops everything. -/
def serviceAnswer {α : Type} : Outcome α → Program (Except Report α)
  | .ok a => .done (.ok a)
  | .error (.report cause) => .done (.error cause)
  | .error (.database cause) => .done (.error ⟨cause.chain⟩)
  | .error (.stage cause) => .done (.error cause.report)
  | .error (.fault cause) => .fail (.fault cause)

def Program.serve {α : Type} : Program α → Program α
  | .done a => .done a
  | .fail cause => .fail cause
  | .ask (.relays hashes) next =>
    ((Relays.bribes hashes).attempt.bind serviceAnswer).bind fun answer => (next answer).serve
  | .ask (.price currency) next =>
    ((Prices.latest currency).attempt.bind serviceAnswer).bind fun answer => (next answer).serve
  | .ask (.cacheRead key maxAge) next =>
    ((Cache.find key maxAge).attempt.bind serviceAnswer).bind fun answer => (next answer).serve
  | .ask r next => .ask r fun answer => (next answer).serve

end ValidatorDays
