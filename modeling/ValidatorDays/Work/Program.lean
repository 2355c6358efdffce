import ValidatorDays.Work.Request
/-! Work as a tree: every node asks the world one thing and goes on with the answer,
whatever it is. The tree holds every course the work can take, so a statement about all
courses is a statement about the tree. -/
namespace ValidatorDays

inductive Program (α : Type) where
  | done (a : α)
  | fail (cause : Failure)
  | ask (r : Request) (next : r.Answer → Program α)

namespace Program

variable {α β : Type}

def bind : Program α → (α → Program β) → Program β
  | .done a, f => f a
  | .fail cause, _ => .fail cause
  | .ask r next, f => .ask r fun answer => (next answer).bind f

instance : Monad Program where
  pure := .done
  bind := bind

def attempt : Program α → Program (Outcome α)
  | .done a => .done (.ok a)
  | .fail cause => .done (.error cause)
  | .ask r next => .ask r fun answer => (next answer).attempt

def mapFailure (f : Failure → Failure) : Program α → Program α
  | .done a => .done a
  | .fail cause => .fail (f cause)
  | .ask r next => .ask r fun answer => (next answer).mapFailure f

/-- One question is open while other work goes on. -/
def beside {γ : Type} (r : Request) (next : r.Answer → Program β → Program γ) :
    Program β → Program γ
  | .done b => .ask r fun answer => next answer (.done b)
  | .fail cause => .fail cause
  | .ask r' next' => .ask .firstGoesOn fun
    | true => .ask r fun answer => next answer (.ask r' next')
    | false => .ask r' fun answer => beside r next (next' answer)

/-- Two works at the same time. The first failure of either is what both come to, and then nothing
more is asked. -/
def both : Program α → Program β → Program (α × β)
  | .done a, q => q.bind fun b => .done (a, b)
  | .fail cause, _ => .fail cause
  | .ask r next, q => beside r (fun answer => both (next answer)) q

def ofOutcome : Outcome α → Program α
  | .ok a => .done a
  | .error cause => .fail cause

instance : MonadLift (Except Fault) Program := ⟨fun a => ofOutcome (.ofChecked a)⟩
instance : MonadLift (Except StageError) Program := ⟨fun a => ofOutcome (.ofStage a)⟩
instance : MonadLift (Except Failure) Program := ⟨ofOutcome⟩

def ofDatabase : Except DatabaseError α → Program α
  | .ok a => .done a
  | .error cause => .fail (.database cause)

def ofReport : Except Report α → Program α
  | .ok a => .done a
  | .error cause => .fail (.report cause)

def query (q : Query) : Program q.Rows := .ask (.query q) ofDatabase
def write (w : Write) : Program Unit :=
  (ofOutcome (.ofChecked w.bound)).bind fun _ => .ask (.write w) ofDatabase
def begin : Program Unit := .ask .begin ofDatabase
def commit : Program Unit := .ask .commit ofDatabase
def indexer (q : IndexerQuery) : Program q.Rows := .ask (.indexer q) ofReport
def relays (hashes : List BlockHash) : Program (List (BlockHash × Wei)) :=
  .ask (.relays hashes) ofReport
def price (currency : String) : Program Decimal := .ask (.price currency) ofReport

abbrev Event := Sigma Request.Answer

/-- `Runs p trace result`: with these answers to these requests, the work comes to that. -/
inductive Runs : Program α → List Event → Outcome α → Prop where
  | done (a : α) : Runs (.done a) [] (.ok a)
  | fail (cause : Failure) : Runs (.fail cause) [] (.error cause)
  | ask {r : Request} {next : r.Answer → Program α} {trace : List Event} {result : Outcome α}
      (answer : r.Answer) (rest : Runs (next answer) trace result) :
      Runs (.ask r next) (⟨r, answer⟩ :: trace) result

def run {σ : Type} (world : (r : Request) → σ → r.Answer × σ) : Program α → σ → Outcome α × σ
  | .done a, s => (.ok a, s)
  | .fail cause, s => (.error cause, s)
  | .ask r next, s =>
    match world r s with
    | (answer, s) => (next answer).run world s

end Program
end ValidatorDays
