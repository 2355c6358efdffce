import ValidatorDays.Stage.Gate
/-! The income of a set of validators, day by day, and an estimate for the day in progress.
Answers are kept for about an epoch: that makes them come sooner, never differently. -/
namespace ValidatorDays

structure IncomeRequest where
  chain : Int
  indices : List ValidatorIndex
  lower : Day
  upper : Option Day
  lastFinalized : Epoch

namespace IncomeRequest

/-- Stands in for a missing upper day; no day gets that far. -/
def unboundedDay : Day := ⟨65536⟩

def cacheAge : Span := .ofSeconds 394

def insertIndex (index : ValidatorIndex) : List ValidatorIndex → List ValidatorIndex
  | [] => [index]
  | i :: rest =>
    if index < i then index :: i :: rest
    else if index = i then i :: rest
    else i :: insertIndex index rest

def ascending (indices : List ValidatorIndex) : List ValidatorIndex :=
  indices.foldr insertIndex []

def cacheKey (chain : Int) (indices : List ValidatorIndex) (lower upper : Day)
    (lastFinalized : Epoch) : String :=
  ":".intercalate [intText chain, "validatorIncomeHistory", lower.text, upper.text,
    lastFinalized.text, ",".intercalate (indices.map intText)]

def upperBound (r : IncomeRequest) : Day := r.upper.getD unboundedDay

def key (r : IncomeRequest) : String :=
  cacheKey r.chain (ascending r.indices) r.lower r.upperBound r.lastFinalized

def cachedHistory (key : String) : Program (Option IncomeHistory) :=
  .ask (.cacheRead key cacheAge) fun
    | .ok (some value) => return (IncomeHistory.decode value).toOption
    | .ok none => return none
    | .error _ => return none

/-- Nothing is deposited where no epoch has passed. -/
def depositedSince (indices : List ValidatorIndex) : Option EpochRange → Program Gwei
  | none => return .zero
  | some range => readStage (.depositsSum indices range)

def withdrawnSince (indices : List ValidatorIndex) : Option EpochRange → Program Gwei
  | none => return .zero
  | some range => do
    let (first, stop) ← range.slots
    readStage (.withdrawalsSum indices first stop)

/-- What the balances are now and what they were at the end of `lastDay`, and the money that was
moved in and out since. All four are read at the same time. -/
def readings (indices : List ValidatorIndex) (lastDay : Day) (lastFinalized : Epoch)
    (since : Option EpochRange) : Program (List ValidatorBalance × Gwei × Gwei × Gwei) :=
  (askIndexer (.balancesAt indices lastFinalized)).both
    ((readStage (.endBalanceSum indices lastDay)).both
      ((depositedSince indices since).both (withdrawnSince indices since)))

/-- Income since the end of the last exported day: what the balance is now less what it was
then, without the money that moved in or out. -/
def estimate (indices : List ValidatorIndex) (lastDay : Day) (lastFinalized : Epoch) :
    Program IncomePoint := do
  let day ← lastDay.next
  let first := day.epochs.first
  let since := if first ≤ lastFinalized then some (EpochRange.mk first lastFinalized) else none
  let (balances, lastBalance, deposits, withdrawals) ←
    readings indices lastDay lastFinalized since
  let total ← Amount.sum (balances.map (·.balance))
  let rewards ← (← (← total.sub lastBalance).sub deposits).add withdrawals
  return ⟨day, rewards.count, none⟩

/-- The day the estimate goes on from: the last one stored, or else the last one exported,
or else the one before genesis. -/
def lastDay (stored : IncomeHistory) : Program Day := do
  match stored.getLast? with
  | some point => return point.day
  | none => return (← readStage .lastExportedDay).getD ⟨-1⟩

def storedHistory (r : IncomeRequest) : Program IncomeHistory := do
  let stored ← readStage (.history (ascending r.indices) r.lower r.upperBound)
  match r.upper with
  | some _ => return stored
  | none =>
    let estimated ← estimate (ascending r.indices) (← lastDay stored) r.lastFinalized
    return stored ++ [estimated]

def history (r : IncomeRequest) : Program IncomeHistory := do
  if r.indices = [] then return []
  match ← cachedHistory r.key with
  | some history => return history
  | none =>
    let history ← r.storedHistory
    .ask (.cacheSubmit r.key (IncomeHistory.toJson history)) fun _ => return history

end IncomeRequest
end ValidatorDays
