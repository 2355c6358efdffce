import ValidatorDays.Chart.Totals
import ValidatorDays.Work.Program
/-! Blocks on their way from the indexer into the totals. One party fetches chunk after
chunk and feeds the blocks, highest first, into a queue with limited room; the other takes
them out and counts them. Fetching a chunk overlaps with counting the one before, and which
of the two goes on when both can is for the world to say. -/
namespace ValidatorDays.BlockStream

structure State where
  chunks : List BlockRange
  unsent : List Block
  queue : List Block
  totals : BlockTotals
  stopped : Option StageError

inductive Move where
  | fetch (chunk : BlockRange) (rest : List BlockRange)
  | send (block : Block) (rest : List Block)
  deriving DecidableEq

/-- The next move of the party that feeds: `none` when it is done or has to wait. It notices
that the counting has stopped when it tries to send. -/
def State.feed (room : Nat) (s : State) : Option Move :=
  match s.unsent, s.chunks with
  | block :: rest, _ =>
    if s.stopped.isNone && s.queue.length < room then some (.send block rest) else none
  | [], chunk :: rest => some (.fetch chunk rest)
  | [], [] => none

def State.taken (s : State) : Option (Block × List Block) :=
  match s.stopped, s.queue with
  | none, block :: rest => some (block, rest)
  | _, _ => none

def State.fetched (s : State) (rest : List BlockRange) (blocks : List Block) : State :=
  { s with chunks := rest, unsent := blocks }

def State.sent (s : State) (block : Block) (rest : List Block) : State :=
  { s with unsent := rest, queue := s.queue ++ [block] }

def State.counted (s : State) (block : Block) (rest : List Block) : Checked State := do
  match ← s.totals.addBlock block with
  | (totals, none) => return { s with queue := rest, totals := totals }
  | (totals, some e) => return { s with queue := [], totals := totals, stopped := some e }

def drain (totals : BlockTotals) : List Block → Checked Unit
  | [] => return ()
  | block :: rest => do
    match ← totals.addBlock block with
    | (totals, none) => drain totals rest
    | (_, some _) => return ()

/-- A chunk could not be fetched. What was fetched before is still counted. -/
def State.broken (s : State) (cause : Report) : Program BlockTotals := do
  if s.stopped.isNone then drain s.totals s.queue
  .fail (.stage (.notAggregated cause))

def State.result (s : State) : Program BlockTotals :=
  match s.stopped with
  | none => .done s.totals
  | some e => .fail (.stage e)

def State.size (s : State) : Nat × Nat × Nat := (s.chunks.length, s.unsent.length, s.queue.length)

theorem State.counted_size {s s' : State} {block : Block} {rest : List Block}
    (take : s.taken = some (block, rest)) (count : s.counted block rest = .ok s') :
    s'.chunks = s.chunks ∧ s'.unsent = s.unsent ∧ s'.queue.length < s.queue.length := by
  have shape : s.queue = block :: rest := by
    unfold taken at take
    split at take
    · rename_i h; simp_all
    · cases take
  unfold counted at count
  cases step : s.totals.addBlock block with
  | error e => rw [step] at count; cases count
  | ok progress =>
    rw [step] at count
    obtain ⟨totals, stopped⟩ := progress
    cases stopped <;> · cases count; simp [shape]

theorem State.feed_send {room : Nat} {s : State} {block : Block} {rest : List Block}
    (move : s.feed room = some (.send block rest)) : s.unsent = block :: rest := by
  unfold feed at move
  split at move
  · split at move <;> simp_all
  · simp at move
  · simp at move

theorem State.feed_fetch {room : Nat} {s : State} {chunk : BlockRange} {rest : List BlockRange}
    (move : s.feed room = some (.fetch chunk rest)) : s.chunks = chunk :: rest := by
  unfold feed at move
  split at move
  · split at move <;> simp at move
  · simp_all
  · simp at move

/-- Whether the party that feeds goes next: the world says so only where both can go on. -/
def feederNext (feed take : Bool) : Program Bool :=
  if feed && take then .ask .feederFirst .done else .done feed

def loop (room : Nat) (s : State) : Program BlockTotals :=
  (feederNext (s.feed room).isSome s.taken.isSome).bind fun
    | true =>
      match _move : s.feed room with
      | some (.fetch chunk rest) =>
        .ask (.indexer (.blocks chunk)) fun
          | .ok blocks => loop room (s.fetched rest blocks)
          | .error cause => s.broken cause
      | some (.send block rest) => loop room (s.sent block rest)
      | none => s.result
    | false =>
      match _take : s.taken with
      | some (block, rest) =>
        match _count : s.counted block rest with
        | .ok s' => loop room s'
        | .error cause => .fail (.fault cause)
      | none => s.result
termination_by s.size
decreasing_by
  all_goals simp only [State.size, State.fetched, State.sent, Prod.lex_def]
  · simp [State.feed_fetch _move]
  · simp [State.feed_send _move]
  · have smaller := State.counted_size _take _count
    simp [smaller]

/-- No queue holds more blocks than this. -/
def roomLimit : Nat := 2305843009213693951

def totals (range : BlockRange) (chunkSize : Int) : Program BlockTotals := do
  let room := (max chunkSize 1).toNat
  if roomLimit < room then .fail (.fault .queueTooLong)
  else
    let chunks ← range.descending chunkSize
    loop room ⟨chunks, [], [], .empty, none⟩

end ValidatorDays.BlockStream
