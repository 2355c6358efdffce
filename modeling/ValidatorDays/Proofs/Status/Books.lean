import ValidatorDays.Proofs.Work.Events
/-! The stored statuses, and what the statements do to them. A statement of a transaction shows
when the transaction is committed, any other when it is answered, and one that fails never. -/
namespace ValidatorDays

open Program

/-- The statement has to do with the status of this day, or of none. -/
def Write.Concerns (day : Day) : Write → Prop
  | .markExported d _ | .setFinished d => d = day
  | _ => True

def Write.Quiet : Write → Prop
  | .markExported .. | .setFinished _ => False
  | _ => True

/-- The stored rows. A day that nobody has worked on has none. -/
abbrev StatusTable := Day → Option DayStatus

namespace StatusTable

def empty : StatusTable := fun _ => none

def status (t : StatusTable) (day : Day) : DayStatus := (t day).getD .blank

def Exported (t : StatusTable) (day : Day) (category : Category) : Prop :=
  (t.status day).exported category = true

def Finished (t : StatusTable) (day : Day) : Prop := (t.status day).finished = true

def put (t : StatusTable) (day : Day) (row : Option DayStatus) : StatusTable :=
  fun d => if d = day then row else t d

/-- A mark makes the row if there is none. A day is finished only where there is a row. -/
def write (t : StatusTable) : Write → StatusTable
  | .markExported day category => t.put day (some ((t.status day).mark category))
  | .setFinished day => t.put day ((t day).map .finish)
  | _ => t

def writeAll (t : StatusTable) (ws : List Write) : StatusTable := ws.foldl write t

def GrowsInto (t u : StatusTable) : Prop :=
  (∀ day category, t.Exported day category → u.Exported day category) ∧
    ∀ day, t.Finished day → u.Finished day

theorem GrowsInto.refl (t : StatusTable) : t.GrowsInto t := ⟨fun _ _ => id, fun _ => id⟩

theorem GrowsInto.trans {t u v : StatusTable} (first : t.GrowsInto u) (rest : u.GrowsInto v) :
    t.GrowsInto v :=
  ⟨fun day category => rest.1 day category ∘ first.1 day category,
    fun day => rest.2 day ∘ first.2 day⟩

theorem put_same (t : StatusTable) (day : Day) (row : Option DayStatus) : t.put day row day = row :=
  if_pos rfl

theorem put_other (t : StatusTable) {day d : Day} (row : Option DayStatus) (other : d ≠ day) :
    t.put day row d = t d := if_neg other

theorem finished_put (t : StatusTable) (day : Day) (row : DayStatus) (d : Day) :
    (t.put day (some row)).Finished d ↔ if d = day then row.finished = true else t.Finished d := by
  by_cases same : d = day <;> simp [Finished, status, put, same]

theorem not_finished_empty (day : Day) : ¬ empty.Finished day := Bool.false_ne_true

theorem write_other (t : StatusTable) {w : Write} {day d : Day} (concerns : w.Concerns day)
    (other : d ≠ day) : t.write w d = t d := by
  cases w with
  | markExported d' c =>
    cases concerns
    exact t.put_other _ other
  | setFinished d' =>
    cases concerns
    exact t.put_other _ other
  | _ => rfl

theorem write_quiet (t : StatusTable) {w : Write} (quiet : w.Quiet) : t.write w = t := by
  cases w with
  | markExported | setFinished => exact quiet.elim
  | _ => rfl

theorem exported_mark (t : StatusTable) (day : Day) (category : Category) (d : Day)
    (c : Category) : (t.write (.markExported day category)).Exported d c ↔
      t.Exported d c ∨ (d = day ∧ c = category) := by
  by_cases same : d = day
  · subst same
    simp [Exported, status, write, put, DayStatus.mark, or_comm]
  · simp [Exported, status, write, put, same]

theorem finished_mark (t : StatusTable) (day : Day) (category : Category) (d : Day) :
    (t.write (.markExported day category)).Finished d ↔ t.Finished d := by
  by_cases same : d = day
  · subst same
    simp [Finished, status, write, put, DayStatus.mark]
  · simp [Finished, status, write, put, same]

theorem exported_finish (t : StatusTable) (day d : Day) (c : Category) :
    (t.write (.setFinished day)).Exported d c ↔ t.Exported d c := by
  by_cases same : d = day
  · subst same
    cases row : t d <;> simp [Exported, status, write, put, DayStatus.finish, row]
  · simp [Exported, status, write, put, same]

theorem finished_finish (t : StatusTable) (day d : Day) :
    (t.write (.setFinished day)).Finished d ↔ t.Finished d ∨ (d = day ∧ (t day).isSome) := by
  by_cases same : d = day
  · subst same
    cases row : t d <;> simp [Finished, status, write, put, DayStatus.finish, row]
  · simp [Finished, status, write, put, same]

theorem write_grows (t : StatusTable) (w : Write) : t.GrowsInto (t.write w) := by
  cases w with
  | markExported day category =>
    exact ⟨fun d c h => (t.exported_mark ..).mpr (.inl h), fun d h => (t.finished_mark ..).mpr h⟩
  | setFinished day =>
    exact ⟨fun d c h => (t.exported_finish ..).mpr h,
      fun d h => (t.finished_finish ..).mpr (.inl h)⟩
  | _ => exact .refl t

theorem writeAll_grows (t : StatusTable) (ws : List Write) : t.GrowsInto (t.writeAll ws) := by
  induction ws generalizing t with
  | nil => exact .refl t
  | cons w others ih => exact (t.write_grows w).trans (ih _)

theorem writeAll_other (t : StatusTable) {ws : List Write} {day d : Day}
    (concern : ∀ w ∈ ws, w.Concerns day) (other : d ≠ day) : t.writeAll ws d = t d := by
  induction ws generalizing t with
  | nil => rfl
  | cons w others ih =>
    obtain ⟨first, rest⟩ := List.forall_mem_cons.mp concern
    exact (ih (t.write w) rest).trans (t.write_other first other)

theorem writeAll_quiet (t : StatusTable) {ws : List Write} (quiet : ∀ w ∈ ws, w.Quiet) :
    t.writeAll ws = t := by
  induction ws with
  | nil => rfl
  | cons w others ih =>
    obtain ⟨first, rest⟩ := List.forall_mem_cons.mp quiet
    change (t.write w).writeAll others = t
    rw [t.write_quiet first, ih rest]

theorem status_congr {t u : StatusTable} {day : Day} (same : t day = u day) :
    t.status day = u.status day := congrArg (·.getD .blank) same

end StatusTable

/-- The statements that an event makes show, in this state of the transaction. -/
def Program.Transaction.shows : Transaction → Event → List Write
  | none, ⟨.write w, .ok ()⟩ => [w]
  | some writes, ⟨.commit, .ok ()⟩ => writes
  | _, ⟨.pollWrites underWay, some (i, .ok ())⟩ | _, ⟨.awaitWrites underWay, some (i, .ok ())⟩ =>
    [underWay[i]]
  | _, _ => []

theorem Program.Transaction.shows_mem {tx : Transaction} {e : Event} {w : Write}
    (member : w ∈ tx.shows e) : w ∈ tx.getD [] ∨ w ∈ e.1.writes := by
  unfold shows at member
  split at member
  · exact .inr member
  · exact .inl member
  · cases List.mem_singleton.mp member
    exact .inr (List.getElem_mem _)
  · cases List.mem_singleton.mp member
    exact .inr (List.getElem_mem _)
  · cases member

theorem Program.Transaction.after_mem {tx : Transaction} {e : Event} {w : Write}
    (member : w ∈ (tx.after e).getD []) : w ∈ tx.getD [] ∨ w ∈ e.1.writes := by
  unfold after at member
  split at member
  · cases member
  · exact List.mem_append.mp member
  · cases member
  · exact .inl member

theorem Program.Transaction.after_reads (tx : Transaction) {e : Event} (reads : e.1.Reads) :
    tx.after e = tx ∧ tx.shows e = [] := by
  obtain ⟨r, answer⟩ := e
  cases r with
  | query | indexer | relays | price | firstGoesOn | feederFirst => cases tx <;> exact ⟨rfl, rfl⟩
  | _ => exact reads.elim

/-- The statements that show after these events, in the order in which they came to show. -/
def Program.Transaction.shown : Transaction → List Event → List Write
  | _, [] => []
  | tx, e :: rest => tx.shows e ++ (tx.after e).shown rest

def Program.Event.Harmless (e : Event) : Prop :=
  e.1.Within Write.Quiet ∨ ∃ w cause, e = ⟨.write w, .error cause⟩

/-- The rows that are stored, and the statements of a transaction that do not show yet. -/
structure Books where
  table : StatusTable
  pending : Program.Transaction

namespace Books

def opened (t : StatusTable) : Books := ⟨t, none⟩

def view (b : Books) : StatusTable := b.table.writeAll (b.pending.getD [])

def after (b : Books) (e : Event) : Books :=
  ⟨b.table.writeAll (b.pending.shows e), b.pending.after e⟩

def afterAll (b : Books) (trace : List Event) : Books := trace.foldl after b

/-- A status that is read is the one that is there. Any other answer is free. -/
def Answers (b : Books) : Event → Prop
  | ⟨.query (.status day), .ok row⟩ | ⟨.query (.statusForUpdate day), .ok row⟩ => row = b.view day
  | _ => True

def Agrees (b : Books) : List Event → Prop
  | [] => True
  | e :: rest => b.Answers e ∧ (b.after e).Agrees rest

theorem after_reads (b : Books) {e : Event} (reads : e.1.Reads) : b.after e = b := by
  obtain ⟨same, shows⟩ := b.pending.after_reads reads
  rw [after, shows, same]
  rfl

theorem afterAll_append (b : Books) (first rest : List Event) :
    b.afterAll (first ++ rest) = (b.afterAll first).afterAll rest := List.foldl_append

theorem agrees_append (b : Books) (first rest : List Event) :
    b.Agrees (first ++ rest) ↔ b.Agrees first ∧ (b.afterAll first).Agrees rest := by
  induction first generalizing b with
  | nil => simp [Agrees, afterAll]
  | cons e others ih =>
    simp only [List.cons_append, Agrees, ih, and_assoc]
    exact Iff.rfl

theorem afterAll_pending (b : Books) (trace : List Event) :
    (b.afterAll trace).pending = trace.foldl Program.Transaction.after b.pending := by
  induction trace generalizing b with
  | nil => rfl
  | cons e others ih => exact ih (b.after e)

def Still (b : Books) : Prop := ∀ w ∈ b.pending.getD [], w.Quiet

theorem still_opened (t : StatusTable) : (opened t).Still := by simp [Still, opened]

theorem Still.view {b : Books} (still : b.Still) : b.view = b.table := b.table.writeAll_quiet still

theorem Still.after {b : Books} (still : b.Still) {e : Event} (harmless : e.Harmless) :
    (b.after e).table = b.table ∧ (b.after e).Still := by
  rcases harmless with quiet | ⟨w, cause, rfl⟩
  · refine ⟨b.table.writeAll_quiet fun w member => ?_, fun w member => ?_⟩
    · exact (Program.Transaction.shows_mem member).elim (still w) (quiet w)
    · exact (Program.Transaction.after_mem member).elim (still w) (quiet w)
  · obtain ⟨t, pending⟩ := b
    cases pending <;> exact ⟨rfl, still⟩

theorem Still.afterAll {b : Books} (still : b.Still) {trace : List Event}
    (harmless : ∀ e ∈ trace, e.Harmless) :
    (b.afterAll trace).table = b.table ∧ (b.afterAll trace).Still := by
  induction trace generalizing b with
  | nil => exact ⟨rfl, still⟩
  | cons e others ih =>
    obtain ⟨first, rest⟩ := List.forall_mem_cons.mp harmless
    obtain ⟨same, stillThen⟩ := still.after first
    obtain ⟨sameToo, stillAtLast⟩ := ih stillThen rest
    exact ⟨sameToo.trans same, stillAtLast⟩

theorem Still.reads {b : Books} (still : b.Still) {trace : List Event} (agrees : b.Agrees trace)
    (harmless : ∀ e ∈ trace, e.Harmless) {day : Day} {row : Option DayStatus}
    (read : ⟨.query (.status day), .ok row⟩ ∈ trace) : row = b.table day := by
  induction trace generalizing b with
  | nil => cases read
  | cons e others ih =>
    obtain ⟨first, rest⟩ := List.forall_mem_cons.mp harmless
    rcases List.mem_cons.mp read with rfl | later
    · exact agrees.1.trans (congrFun still.view day)
    · obtain ⟨same, stillThen⟩ := still.after first
      rw [ih stillThen agrees.2 rest later, same]

def calmRows (validators : Int) (t : StatusTable) : (q : Query) → q.Rows
  | .finalizedEpochs _ => epochsPerDay
  | .validatorCount => validators
  | .status day | .statusForUpdate day => t day
  | .blockCounts _ | .slashings _ | .deposits .. | .withdrawals .. | .canonicalBlocks _
  | .history .. | .relayBids _ => []
  | .lastFinalizedEpoch | .firstBlockFrom _ | .lastExportedDay | .lastEmission _ | .latestPrice
  | .cached .. => none
  | .depositsSum .. | .withdrawalsSum .. | .endBalanceSum .. | .rewardsSum _ => ⟨0⟩
  | .chartDayExported _ => false

def calmFindings : (q : IndexerQuery) → q.Rows
  | .balances _ | .syncDuties _ | .failedAttestations _ | .proposerIncome _ | .blockRewards _
  | .blocks _ | .balancesAt .. => []

/-- The answers of a calm world. Nothing fails in it, and what is waited for is there. -/
def calmAnswer (validators : Int) (t : StatusTable) : (r : Request) → r.Answer
  | .query q => .ok (calmRows validators t q)
  | .indexer q => .ok (calmFindings q)
  | .write _ | .begin | .commit | .connect _ => .ok ()
  | .relays _ => .ok []
  | .price _ => .ok 0
  | .cacheRead .. => .ok none
  | .cacheSubmit .. | .startWrite _ | .startFetch _ => ()
  | .pollWrites _ | .pollFetches _ | .awaitWrites [] | .awaitFetches [] => none
  | .awaitWrites (_ :: _) => some (⟨0, Nat.zero_lt_succ _⟩, .ok ())
  | .awaitFetches (_ :: _) => some (⟨0, Nat.zero_lt_succ _⟩, .ok [])
  | .firstGoesOn | .feederFirst | .patience => false
  | .now => genesis

/-- A world that answers like this, by the rows that show, and keeps its books. -/
def kept (answer : StatusTable → (r : Request) → r.Answer) (r : Request) (b : Books) :
    r.Answer × Books :=
  (answer b.view r, b.after ⟨r, answer b.view r⟩)

def Honest (answer : StatusTable → (r : Request) → r.Answer) : Prop :=
  ∀ (b : Books) r, b.Answers ⟨r, answer b.view r⟩

abbrev calm (validators : Int) : (r : Request) → Books → r.Answer × Books :=
  kept (calmAnswer validators)

theorem calm_honest (validators : Int) : Honest (calmAnswer validators) := by
  intro b r
  cases r with
  | query q => cases q <;> trivial
  | awaitWrites underWay => cases underWay <;> trivial
  | awaitFetches underWay => cases underWay <;> trivial
  | _ => trivial

theorem Honest.agrees {answer : StatusTable → (r : Request) → r.Answer} (honest : Honest answer)
    {α : Type} (p : Program α) (b : Books) : b.Agrees (p.observe (kept answer) b).1 := by
  induction p generalizing b with
  | done a => trivial
  | fail cause => trivial
  | ask r next ih => exact ⟨honest b r, ih _ _⟩

end Books
end ValidatorDays
