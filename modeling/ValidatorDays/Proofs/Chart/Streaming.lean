import Mathlib.Tactic.Linarith
import ValidatorDays.Chart.Stream
import ValidatorDays.Proofs.Work.Successes
/-! Counting blocks as they come. However feeding and counting take turns, and wherever the range is
cut, the blocks of a chain are counted as if they were counted one after the other. -/
namespace ValidatorDays

/-- The blocks of the chain that lie in the range, in the order of the chain. -/
def BlockRange.of (range : BlockRange) (chain : List Block) : List Block :=
  chain.filter fun block => range.first ≤ block.number ∧ block.number ≤ range.last

def Descending (chain : List Block) : Prop :=
  chain.Pairwise fun above below => below.number < above.number

instance (chain : List Block) : Decidable (Descending chain) :=
  inferInstanceAs (Decidable (chain.Pairwise _))

namespace BlockRange

variable {first cut last : BlockNumber} {chain : List Block}

theorem of_empty (empty : last < first) (chain : List Block) :
    BlockRange.of ⟨first, last⟩ chain = [] :=
  List.filter_eq_nil_iff.mpr fun _ _ inside =>
    have inside := of_decide_eq_true inside
    absurd (inside.1.trans inside.2) (not_le.mpr empty)

theorem of_below (below : ∀ block ∈ chain, block.number < first) :
    BlockRange.of ⟨first, last⟩ chain = [] :=
  List.filter_eq_nil_iff.mpr fun block member inside =>
    absurd (of_decide_eq_true inside).1 (not_le.mpr (below block member))

theorem of_cons_inside {block : Block} (inside : first ≤ block.number ∧ block.number ≤ last) :
    BlockRange.of ⟨first, last⟩ (block :: chain) = block :: BlockRange.of ⟨first, last⟩ chain :=
  List.filter_cons_of_pos (decide_eq_true inside)

theorem of_cons_outside {block : Block} (outside : ¬ (first ≤ block.number ∧ block.number ≤ last)) :
    BlockRange.of ⟨first, last⟩ (block :: chain) = BlockRange.of ⟨first, last⟩ chain :=
  List.filter_cons_of_neg (mt of_decide_eq_true outside)

theorem of_cut (descending : Descending chain) (inside : first ≤ cut) (insideToo : cut ≤ last + 1) :
    BlockRange.of ⟨first, last⟩ chain =
      BlockRange.of ⟨cut, last⟩ chain ++ BlockRange.of ⟨first, cut - 1⟩ chain := by
  induction chain with
  | nil => rfl
  | cons block rest ih =>
    obtain ⟨below, sorted⟩ := List.pairwise_cons.mp descending
    have ih := ih sorted
    by_cases above : cut ≤ block.number
    · have under : ¬ (first ≤ block.number ∧ block.number ≤ cut - 1) := by
        rintro ⟨-, least⟩
        linarith
      rw [of_cons_outside under]
      by_cases upper : block.number ≤ last
      · rw [of_cons_inside ⟨inside.trans above, upper⟩, of_cons_inside ⟨above, upper⟩, ih]
        rfl
      · rw [of_cons_outside fun within => upper within.2, ih,
          of_cons_outside fun within => upper within.2]
    · have emptyAbove : ∀ {chain : List Block}, (∀ other ∈ chain, other.number ≤ block.number) →
          BlockRange.of ⟨cut, last⟩ chain = [] := fun lower =>
        of_below fun other member => (lower other member).trans_lt (not_le.mp above)
      rw [emptyAbove
        (List.forall_mem_cons.mpr ⟨le_rfl, fun other member => (below other member).le⟩)]
      rw [emptyAbove fun other member => (below other member).le] at ih
      by_cases least : first ≤ block.number
      · have insideLow : block.number ≤ cut - 1 := Int.le_sub_one_of_lt (not_le.mp above)
        have insideAll : block.number ≤ last := by linarith
        rw [of_cons_inside ⟨least, insideAll⟩, of_cons_inside ⟨least, insideLow⟩, ih]
        rfl
      · rw [of_cons_outside fun within => least within.1, ih,
          of_cons_outside fun within => least within.1]

theorem of_chunksFrom (descending : Descending chain) {first high : Int} {size : Nat}
    {chunks : List BlockRange} (cut : chunksFrom first size high = .ok chunks) :
    chunks.flatMap (BlockRange.of · chain) = BlockRange.of ⟨first, high⟩ chain := by
  fun_induction chunksFrom first size high generalizing chunks with
  | case1 high some ih =>
    obtain ⟨_, -, cut⟩ := bind_eq_ok.mp cut
    obtain ⟨_, -, cut⟩ := bind_eq_ok.mp cut
    obtain ⟨rest, later, cut⟩ := bind_eq_ok.mp cut
    cases cut
    rw [List.flatMap_cons, ih later]
    refine (of_cut descending (le_max_right _ _) ?_).symm
    exact max_le (by linarith) (by linarith)
  | case2 high none =>
    cases cut
    exact (of_empty (not_le.mp none) chain).symm

theorem of_descending (descending : Descending chain) {range : BlockRange} {size : Int}
    {chunks : List BlockRange} (cut : range.descending size = .ok chunks) :
    chunks.flatMap (BlockRange.of · chain) = range.of chain := by
  obtain ⟨_, -, pieces⟩ := bind_eq_ok.mp cut
  obtain ⟨_, -, pieces⟩ := bind_eq_ok.mp pieces
  exact of_chunksFrom descending pieces

end BlockRange

theorem BlockTotals.addBlocks_append_error {t : BlockTotals} {blocks : List Block} {cause : Failure}
    (failed : t.addBlocks blocks = .error cause) (more : List Block) :
    t.addBlocks (blocks ++ more) = .error cause := by
  induction blocks generalizing t with
  | nil => cases failed
  | cons block rest ih =>
    rw [List.cons_append, addBlocks]
    rw [addBlocks] at failed
    cases counted : t.addBlock block with
    | error fault =>
      rw [counted] at failed
      exact failed
    | ok progress =>
      rw [counted] at failed
      obtain ⟨totals, stopped⟩ := progress
      cases stopped with
      | none => exact ih failed
      | some e => exact failed

namespace BlockStream

/-- What the indexer says of a range is what the chain has there, unless it says nothing. -/
def Tells (chain : List Block) : Program.Event → Prop
  | ⟨.indexer (.blocks range), .ok blocks⟩ => blocks = range.of chain
  | _ => True

abbrev Fetch := BlockRange × Except Report (List Block)

def fetch? : Program.Event → Option Fetch
  | ⟨.indexer (.blocks range), answer⟩ => some (range, answer)
  | _ => none

def fetches (trace : List Program.Event) : List Fetch := trace.filterMap fetch?

theorem fetches_append (first rest : List Program.Event) :
    fetches (first ++ rest) = fetches first ++ fetches rest := List.filterMap_append

theorem mem_fetches {trace : List Program.Event} {range : BlockRange}
    {answer : Except Report (List Block)} :
    (range, answer) ∈ fetches trace ↔ ⟨.indexer (.blocks range), answer⟩ ∈ trace := by
  rw [fetches, List.mem_filterMap]
  constructor
  · rintro ⟨event, member, found⟩
    unfold fetch? at found
    split at found
    · cases found
      exact member
    · cases found
  · exact fun member => ⟨_, member, rfl⟩

theorem fetches_eq_nil {trace : List Program.Event}
    (others : ∀ e ∈ trace, ∀ range, e.1 ≠ .indexer (.blocks range)) : fetches trace = [] := by
  apply List.eq_nil_iff_forall_not_mem.mpr
  rintro ⟨range, answer⟩ member
  exact others _ (mem_fetches.mp member) range rfl

/-- What comes of counting all that is under way, and these blocks after it. -/
def State.outcome (s : State) (blocks : List Block) : Outcome BlockTotals :=
  match s.stopped with
  | some e => .error (.stage e)
  | none => s.totals.addBlocks (s.queue ++ s.unsent ++ blocks)

/-- How a stream may go on that has these chunks left, where `outcome` says what comes of the blocks
it still gets. It ends early only if counting has failed already, or if a chunk is refused. -/
inductive Course : List BlockRange → (List Block → Outcome BlockTotals) → List Fetch →
    Outcome BlockTotals → Prop where
  | complete {outcome : List Block → Outcome BlockTotals} : Course [] outcome [] (outcome [])
  | stopped {chunks : List BlockRange} {outcome : List Block → Outcome BlockTotals}
      {cause : Failure} (failed : outcome [] = .error cause) :
      Course chunks outcome [] (.error cause)
  | refused {chunk : BlockRange} {rest : List BlockRange}
      {outcome : List Block → Outcome BlockTotals} {cause : Report} {failure : Failure} :
      Course (chunk :: rest) outcome [(chunk, .error cause)] (.error failure)
  | told {chunk : BlockRange} {rest : List BlockRange} {outcome : List Block → Outcome BlockTotals}
      {blocks : List Block} {fetched : List Fetch} {result : Outcome BlockTotals}
      (others : Course rest (fun more => outcome (blocks ++ more)) fetched result) :
      Course (chunk :: rest) outcome ((chunk, .ok blocks) :: fetched) result

namespace Course

variable {chunks : List BlockRange} {outcome : List Block → Outcome BlockTotals}
  {fetched : List Fetch} {result : Outcome BlockTotals}

/-- A stream that ends well was told every chunk, in order, and has counted what it was told. -/
theorem of_ok {totals : BlockTotals} (course : Course chunks outcome fetched (.ok totals)) :
    ∃ told : List (BlockRange × List Block), told.map Prod.fst = chunks ∧
      fetched = told.map (fun (range, blocks) => (range, .ok blocks)) ∧
      outcome (told.flatMap Prod.snd) = .ok totals := by
  generalize ends : Except.ok totals = result at course
  induction course with
  | complete => exact ⟨[], rfl, rfl, rfl⟩
  | stopped failed => cases ends
  | refused => cases ends
  | @told chunk _ _ blocks _ _ _ ih =>
    obtain ⟨told, rfl, rfl, counted⟩ := ih ends
    exact ⟨(chunk, blocks) :: told, rfl, rfl, counted⟩

theorem error_of_untold (course : Course chunks outcome fetched result) {chunk : BlockRange}
    (inside : chunk ∈ chunks) (untold : ∀ blocks, (chunk, .ok blocks) ∉ fetched) :
    ∃ failure, result = .error failure := by
  cases result with
  | error failure => exact ⟨failure, rfl⟩
  | ok totals =>
    obtain ⟨told, rfl, rfl, -⟩ := course.of_ok
    obtain ⟨⟨range, blocks⟩, member, rfl⟩ := List.mem_map.mp inside
    exact absurd (List.mem_map_of_mem member) (untold blocks)

theorem error_of_refused (course : Course chunks outcome fetched result) {range : BlockRange}
    {cause : Report} (refused : (range, .error cause) ∈ fetched) :
    ∃ failure, result = .error failure := by
  induction course with
  | complete => cases refused
  | stopped failed => exact ⟨_, rfl⟩
  | refused => exact ⟨_, rfl⟩
  | told others ih => exact ih ((List.mem_cons.mp refused).resolve_left nofun)

theorem result_eq {tell : BlockRange → List Block}
    (course : Course chunks outcome fetched result)
    (lasting : ∀ blocks cause, outcome blocks = .error cause →
      ∀ more, outcome (blocks ++ more) = .error cause)
    (told : ∀ range answer, (range, answer) ∈ fetched → answer = .ok (tell range)) :
    result = outcome (chunks.flatMap tell) := by
  induction course with
  | complete => rfl
  | stopped failed => exact (lasting [] _ failed _).symm
  | refused => cases told _ _ List.mem_cons_self
  | @told chunk _ outcome blocks _ _ _ ih =>
    cases told _ _ List.mem_cons_self
    rw [List.flatMap_cons]
    apply ih
    · intro more cause failed rest
      show outcome (_ ++ (more ++ rest)) = _
      rw [← List.append_assoc]
      exact lasting _ cause failed rest
    · exact fun range answer member => told range answer (List.mem_cons_of_mem _ member)

end Course

variable {chain : List Block} {room : Nat} {s s' : State} {trace : List Program.Event}
  {result : Outcome BlockTotals}

theorem feederNext_ok {feed take next : Bool}
    (run : Program.Runs (feederNext feed take) trace (.ok next)) :
    fetches trace = [] ∧ (next = true → feed = true) ∧
      (next = false → feed = true → take = true) := by
  unfold feederNext at run
  split at run
  next both =>
    rw [Bool.and_eq_true] at both
    cases run with
    | ask answer run =>
      cases run
      exact ⟨rfl, fun _ => both.1, fun _ _ => both.2⟩
  next one =>
    obtain ⟨rfl, same⟩ := Program.runs_done.mp run
    obtain rfl := Except.ok.inj same
    exact ⟨rfl, id, fun refused chosen => absurd chosen (by simp [refused])⟩

theorem broken_error {cause : Report} (run : Program.Runs (s.broken cause) trace result) :
    trace = [] ∧ ∃ failure, result = .error failure := by
  unfold State.broken at run
  split at run
  next going =>
    cases counted : drain s.totals s.queue with
    | ok _ =>
      rw [counted] at run
      cases run
      exact ⟨rfl, _, rfl⟩
    | error fault =>
      rw [counted] at run
      cases run
      exact ⟨rfl, _, rfl⟩
  next stopped =>
    cases run
    exact ⟨rfl, _, rfl⟩

theorem outcome_fetched {chunk : BlockRange} {rest : List BlockRange} (blocks : List Block)
    (move : s.feed room = some (.fetch chunk rest)) :
    (s.fetched rest blocks).outcome = fun more => s.outcome (blocks ++ more) := by
  have unsent : s.unsent = [] := by
    unfold State.feed at move
    split at move
    next => split at move <;> cases move
    next going _ => exact going
    next => cases move
  funext more
  simp only [State.outcome, State.fetched, unsent, List.append_nil, List.append_assoc]

theorem outcome_sent {block : Block} {rest : List Block}
    (move : s.feed room = some (.send block rest)) : (s.sent block rest).outcome = s.outcome := by
  funext more
  simp only [State.outcome, State.sent, State.feed_send move, List.append_assoc, List.cons_append,
    List.nil_append]

theorem taken_eq {block : Block} {rest : List Block} (take : s.taken = some (block, rest)) :
    s.stopped = none ∧ s.queue = block :: rest := by
  unfold State.taken at take
  split at take
  next going line =>
    cases take
    exact ⟨going, line⟩
  next => cases take

theorem outcome_taken {block : Block} {rest : List Block}
    (take : s.taken = some (block, rest)) (more : List Block) :
    s.outcome more = match s.counted block rest with
      | .ok s' => s'.outcome more
      | .error fault => .error (.fault fault) := by
  obtain ⟨going, line⟩ := taken_eq take
  simp only [State.outcome, going, line, State.counted, List.cons_append, BlockTotals.addBlocks]
  cases s.totals.addBlock block with
  | error fault => rfl
  | ok progress =>
    obtain ⟨totals, stopped⟩ := progress
    cases stopped with
    | none => rfl
    | some e => rfl

/-- Where neither party can go on, counting has failed, or all is fetched, sent and counted. -/
theorem course_stuck (positive : 0 < room) (feed : s.feed room = none) (take : s.taken = none)
    (run : Program.Runs s.result trace result) :
    Course s.chunks s.outcome (fetches trace) result := by
  unfold State.result at run
  cases stopped : s.stopped with
  | some e =>
    rw [stopped] at run
    cases run
    exact .stopped (by simp only [State.outcome, stopped])
  | none =>
    rw [stopped] at run
    cases run
    have line : s.queue = [] := by
      cases line : s.queue with
      | nil => rfl
      | cons block rest =>
        rw [State.taken, stopped, line] at take
        cases take
    have unsent : s.unsent = [] := by
      cases unsent : s.unsent with
      | nil => rfl
      | cons block rest => simp [State.feed, unsent, stopped, line, positive] at feed
    have chunks : s.chunks = [] := by
      cases chunks : s.chunks with
      | nil => rfl
      | cons chunk rest => simp [State.feed, unsent, chunks] at feed
    have counted : s.outcome [] = .ok s.totals := by
      simp only [State.outcome, stopped, line, unsent, List.append_nil]
      rfl
    rw [chunks, ← counted]
    exact .complete

/-- Whichever party goes first, a stream fetches its chunks in order. -/
theorem loop_course (positive : 0 < room) (run : Program.Runs (loop room s) trace result) :
    Course s.chunks s.outcome (fetches trace) result := by
  induction s using loop.induct room generalizing trace with
  | _ s fetch send take =>
    rw [loop] at run
    obtain ⟨first, feeds, rest, rfl, chosen, run⟩ | ⟨cause, failed, -⟩ := Program.runs_bind.mp run
    · obtain ⟨silent, canFeed, canTake⟩ := feederNext_ok chosen
      rw [fetches_append, silent, List.nil_append]
      cases feeds with
      | true =>
        simp only at run
        split at run
        next chunk chunks move =>
          rw [State.feed_fetch move]
          cases run with
          | ask answer run =>
            cases answer with
            | ok blocks =>
              have onward := fetch chunk chunks move blocks run
              rw [outcome_fetched blocks move] at onward
              exact .told onward
            | error cause =>
              obtain ⟨rfl, failure, rfl⟩ := broken_error run
              exact .refused
        next block blocks move =>
          have onward := send block blocks move run
          rwa [outcome_sent move] at onward
        next idle =>
          have moves := canFeed rfl
          rw [idle] at moves
          cases moves
      | false =>
        simp only at run
        split at run
        next block blocks taking =>
          split at run
          next s' counted =>
            have onward := take block blocks taking s' counted run
            have same : s'.outcome = s.outcome := by
              funext more
              rw [outcome_taken taking, counted]
            rwa [same, (State.counted_size taking counted).1] at onward
          next cause counted =>
            cases run
            exact .stopped (by rw [outcome_taken taking, counted])
        next idle =>
          have feed : s.feed room = Option.none := by
            by_contra feeds
            have moves := canTake rfl (Option.isSome_iff_ne_none.mpr feeds)
            rw [idle] at moves
            cases moves
          exact course_stuck positive feed idle run
    · unfold feederNext at failed
      split at failed
      next both =>
        cases failed with
        | ask answer failed => cases failed
      next one => cases failed

theorem totals_course {range : BlockRange} {chunkSize : Int} {chunks : List BlockRange}
    (fits : (max chunkSize 1).toNat ≤ roomLimit) (cut : range.descending chunkSize = .ok chunks)
    (run : Program.Runs (BlockStream.totals range chunkSize) trace result) :
    Course chunks BlockTotals.empty.addBlocks (fetches trace) result := by
  unfold BlockStream.totals at run
  dsimp only at run
  rw [if_neg (Nat.not_lt.mpr fits), cut] at run
  exact loop_course (by omega) run

theorem totals_fetched {range : BlockRange} {chunkSize : Int} {totals : BlockTotals}
    (run : Program.Runs (BlockStream.totals range chunkSize) trace (.ok totals)) :
    ∃ chunks, range.descending chunkSize = .ok chunks ∧
      Course chunks BlockTotals.empty.addBlocks (fetches trace) (.ok totals) := by
  have streamed := run
  unfold BlockStream.totals at run
  dsimp only at run
  split at run
  next => cases run
  next fits =>
    obtain ⟨chunks, cut, -⟩ := run.checked_ok
    exact ⟨chunks, cut, totals_course (Nat.not_lt.mp fits) cut streamed⟩

/-- A stream over the blocks of a chain counts those of the range, one after the other. -/
theorem Course.counts {range : BlockRange} {chunkSize : Int} {chunks : List BlockRange}
    (course : Course chunks BlockTotals.empty.addBlocks (fetches trace) result)
    (descending : Descending chain) (cut : range.descending chunkSize = .ok chunks)
    (tells : ∀ event ∈ trace, Tells chain event)
    (unrefused : ∀ chunk cause, ⟨.indexer (.blocks chunk), .error cause⟩ ∉ trace) :
    result = BlockTotals.empty.addBlocks (range.of chain) := by
  have told : ∀ chunk answer, (chunk, answer) ∈ fetches trace → answer = .ok (chunk.of chain) := by
    intro chunk answer member
    have event := mem_fetches.mp member
    cases answer with
    | ok blocks => exact congrArg Except.ok (tells _ event)
    | error cause => exact absurd event (unrefused chunk cause)
  rw [course.result_eq (fun _ _ failed => BlockTotals.addBlocks_append_error failed) told,
    BlockRange.of_descending descending cut]

def Asks : Request → Prop
  | .indexer (.blocks _) | .feederFirst => True
  | _ => False

theorem feederNext_asks (feed take : Bool) : (feederNext feed take).Only Asks := by
  unfold feederNext
  split
  · exact .ask trivial fun answer => .done answer
  · exact .done _

theorem broken_asks (s : State) (cause : Report) : (s.broken cause).Only Asks := by
  unfold State.broken
  split
  · exact .bind (.outcome _) fun _ => .fail _
  · exact .fail _

theorem result_asks (s : State) : s.result.Only Asks := by
  unfold State.result
  split <;> exact trivial

theorem loop_asks (room : Nat) (s : State) : (loop room s).Only Asks := by
  induction s using loop.induct room with
  | _ s fetch send take =>
    rw [loop]
    apply Program.Only.bind (feederNext_asks _ _)
    intro feeds
    cases feeds with
    | true =>
      simp only
      split
      next chunk rest move =>
        apply Program.Only.ask trivial
        intro answer
        cases answer with
        | ok blocks => exact fetch chunk rest move blocks
        | error cause => exact broken_asks s cause
      next block rest move => exact send block rest move
      next idle => exact result_asks s
    | false =>
      simp only
      split
      next block rest taking =>
        split
        next s' counted => exact take block rest taking s' counted
        next cause counted => exact .fail _
      next idle => exact result_asks s

theorem totals_asks (range : BlockRange) (chunkSize : Int) :
    (BlockStream.totals range chunkSize).Only Asks := by
  unfold BlockStream.totals
  dsimp only
  split
  · exact .fail _
  · exact .bind (.outcome _) fun chunks => loop_asks _ _

end BlockStream
end ValidatorDays
