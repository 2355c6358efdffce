import Mathlib.Data.List.Perm.Basic
import ValidatorDays.Proofs.Work.Keeps
/-! What the events of a run say: which answers are failures, what was issued and is not answered
yet, and which transaction is open. `WentWell` is said of a stretch of events that leaves nothing
behind: no failure, nothing under way, no transaction. -/
namespace ValidatorDays

/-- The changes a request stands for: those it issues, or those it asks about. -/
def Request.writes : Request → List Write
  | .write w | .startWrite w => [w]
  | .pollWrites underWay | .awaitWrites underWay => underWay
  | _ => []

def Request.Within (own : Write → Prop) (r : Request) : Prop := ∀ w ∈ r.writes, own w

/-- A question about what is there, or about whose turn it is. -/
def Request.Reads : Request → Prop
  | .query _ | .indexer _ | .relays _ | .price _ | .firstGoesOn | .feederFirst => True
  | _ => False

theorem Request.Reads.within {r : Request} (reads : r.Reads) (own : Write → Prop) :
    r.Within own := by
  cases r with
  | query | indexer | relays | price | firstGoesOn | feederFirst => exact List.forall_mem_nil _
  | _ => exact reads.elim

namespace Program

namespace Event

/-- The answer is no failure. A deadline is one; that there is no answer yet is none. -/
def succeeded : Event → Prop
  | ⟨.query _, .error _⟩ | ⟨.write _, .error _⟩ | ⟨.begin, .error _⟩ | ⟨.commit, .error _⟩
  | ⟨.indexer _, .error _⟩ | ⟨.relays _, .error _⟩ | ⟨.price _, .error _⟩
  | ⟨.cacheRead _ _, .error _⟩ | ⟨.connect _, .error _⟩
  | ⟨.pollWrites _, some (_, .error _)⟩ | ⟨.pollFetches _, some (_, .error _)⟩
  | ⟨.awaitWrites _, some (_, .error _)⟩ | ⟨.awaitFetches _, some (_, .error _)⟩
  | ⟨.awaitWrites _, none⟩ | ⟨.awaitFetches _, none⟩ => False
  | _ => True

instance (e : Event) : Decidable e.succeeded := by
  unfold succeeded
  split <;> infer_instance

def IsLate : Event → Prop
  | ⟨.awaitWrites _, none⟩ => True
  | _ => False

instance (e : Event) : Decidable e.IsLate := by
  unfold IsLate
  split <;> infer_instance

def startsWrite : Event → List Write
  | ⟨.startWrite w, _⟩ => [w]
  | _ => []

def landsWrite : Event → List Write
  | ⟨.pollWrites underWay, some (i, .ok ())⟩ | ⟨.awaitWrites underWay, some (i, .ok ())⟩ =>
    [underWay.get i]
  | _ => []

def refusesWrite : Event → List (Write × DatabaseError)
  | ⟨.pollWrites underWay, some (i, .error cause)⟩
  | ⟨.awaitWrites underWay, some (i, .error cause)⟩ => [(underWay.get i, cause)]
  | _ => []

def startsFetch : Event → List EpochRange
  | ⟨.startFetch range, _⟩ => [range]
  | _ => []

def landsFetch : Event → List EpochRange
  | ⟨.pollFetches underWay, some (i, .ok _)⟩ | ⟨.awaitFetches underWay, some (i, .ok _)⟩ =>
    [underWay.get i]
  | _ => []

end Event

def Marred (seen : List Event) : Prop := ∃ e ∈ seen, ¬ e.succeeded

theorem Marred.within {own seen : List Event} (marred : Marred own) (within : own ⊆ seen) :
    Marred seen :=
  marred.imp fun _ h => ⟨within h.1, h.2⟩

theorem Marred.append {seen : List Event} (marred : Marred seen) (more : List Event) :
    Marred (seen ++ more) := marred.within (List.subset_append_left seen more)

theorem Marred.behind {seen : List Event} (marred : Marred seen) (before : List Event) :
    Marred (before ++ seen) := marred.within (List.subset_append_right before seen)

theorem marred_last (seen : List Event) {e : Event} (failed : ¬ e.succeeded) :
    Marred (seen ++ [e]) := ⟨e, by simp, failed⟩

theorem not_marred {seen : List Event} : ¬ Marred seen ↔ ∀ e ∈ seen, e.succeeded := by
  simp only [Marred, not_exists, not_and, not_not]

abbrev Transaction := Option (List Write)

/-- A transaction ends with its commit, whatever comes of that. -/
def Transaction.after : Transaction → Event → Transaction
  | _, ⟨.begin, .ok ()⟩ => some []
  | some writes, ⟨.write w, .ok ()⟩ => some (writes ++ [w])
  | _, ⟨.commit, _⟩ => none
  | t, _ => t

def openAfter (seen : List Event) : Transaction := seen.foldl Transaction.after none

theorem openAfter_append (seen more : List Event) :
    openAfter (seen ++ more) = more.foldl Transaction.after (openAfter seen) :=
  List.foldl_append

/-- No answer was a failure, no transaction is open, and of all that was issued without waiting
only these statements and questions are not answered yet. -/
structure Pending (seen : List Event) (writes : List Write) (fetches : List EpochRange) : Prop where
  succeeded : ∀ e ∈ seen, e.succeeded
  writes : (seen.flatMap Event.startsWrite).Perm (seen.flatMap Event.landsWrite ++ writes)
  fetches : (seen.flatMap Event.startsFetch).Perm (seen.flatMap Event.landsFetch ++ fetches)
  closed : openAfter seen = none

def WentWell (seen : List Event) : Prop := Pending seen [] []

namespace Pending

private theorem shuffle {A : Type} (a b c d : List A) :
    ((a ++ b) ++ (c ++ d)).Perm ((a ++ c) ++ (b ++ d)) := by
  have swap : (b ++ c).Perm (c ++ b) := List.perm_append_comm
  simpa only [List.append_assoc] using (swap.append_right d).append_left a

theorem append {seen more : List Event} {ws vs : List Write} {fs gs : List EpochRange}
    (first : Pending seen ws fs) (rest : Pending more vs gs) :
    Pending (seen ++ more) (ws ++ vs) (fs ++ gs) := by
  constructor
  · intro e he
    exact (List.mem_append.mp he).elim (first.succeeded e) (rest.succeeded e)
  · simpa only [List.flatMap_append] using (first.writes.append rest.writes).trans (shuffle ..)
  · simpa only [List.flatMap_append] using (first.fetches.append rest.fetches).trans (shuffle ..)
  · rw [openAfter_append, first.closed]
    exact rest.closed

theorem reorder {seen : List Event} {ws vs : List Write} {fs gs : List EpochRange}
    (pending : Pending seen ws fs) (writes : ws.Perm vs) (fetches : fs.Perm gs) :
    Pending seen vs gs :=
  ⟨pending.succeeded, pending.writes.trans (writes.append_left _),
    pending.fetches.trans (fetches.append_left _), pending.closed⟩

theorem still {seen : List Event} {ws : List Write} {fs : List EpochRange} {e : Event}
    (pending : Pending seen ws fs) (well : WentWell [e]) : Pending (seen ++ [e]) ws fs := by
  have both := pending.append well
  rwa [List.append_nil, List.append_nil] at both

private theorem taken {A : Type} {started landed underWay : List A} (i : Fin underWay.length)
    (account : started.Perm (landed ++ underWay)) :
    started.Perm (landed ++ [underWay[i]] ++ underWay.eraseIdx i) := by
  have back : ([underWay[i]] ++ underWay.eraseIdx i).Perm underWay :=
    List.getElem_cons_eraseIdx_perm i.isLt
  rw [List.append_assoc]
  exact account.trans (back.symm.append_left landed)

theorem lands_write {seen : List Event} {ws : List Write} {fs : List EpochRange} {e : Event}
    (pending : Pending seen ws fs) (i : Fin ws.length) (succeeded : e.succeeded)
    (lands : e.landsWrite = [ws.get i]) (starts : e.startsWrite = [])
    (fetches : e.startsFetch = e.landsFetch) (closed : Transaction.after none e = none)
    (noFetch : e.landsFetch = []) : Pending (seen ++ [e]) (ws.eraseIdx i) fs := by
  constructor
  · intro e' he
    rcases List.mem_append.mp he with he | he
    · exact pending.succeeded e' he
    · exact List.mem_singleton.mp he ▸ succeeded
  · simpa [starts, lands] using taken i pending.writes
  · simpa [fetches, noFetch] using pending.fetches
  · simpa [openAfter_append, pending.closed] using closed

theorem lands_fetch {seen : List Event} {ws : List Write} {fs : List EpochRange} {e : Event}
    (pending : Pending seen ws fs) (i : Fin fs.length) (succeeded : e.succeeded)
    (lands : e.landsFetch = [fs.get i]) (starts : e.startsFetch = [])
    (writes : e.startsWrite = e.landsWrite) (closed : Transaction.after none e = none)
    (noWrite : e.landsWrite = []) : Pending (seen ++ [e]) ws (fs.eraseIdx i) := by
  constructor
  · intro e' he
    rcases List.mem_append.mp he with he | he
    · exact pending.succeeded e' he
    · exact List.mem_singleton.mp he ▸ succeeded
  · simpa [writes, noWrite] using pending.writes
  · simpa [starts, lands] using taken i pending.fetches
  · simpa [openAfter_append, pending.closed] using closed

end Pending

namespace WentWell

theorem nil : WentWell [] := ⟨by simp, .nil, .nil, rfl⟩

theorem append {seen more : List Event} (first : WentWell seen) (rest : WentWell more) :
    WentWell (seen ++ more) := Pending.append first rest

theorem single {e : Event} (succeeded : e.succeeded) (writes : e.startsWrite = e.landsWrite)
    (fetches : e.startsFetch = e.landsFetch) (closed : openAfter [e] = none) : WentWell [e] :=
  ⟨by simpa using succeeded, by simp [writes], by simp [fetches], closed⟩

theorem query (q : Query) (rows : q.Rows) : WentWell [⟨.query q, .ok rows⟩] :=
  single trivial rfl rfl rfl

theorem write (w : Write) : WentWell [⟨.write w, .ok ()⟩] := single trivial rfl rfl rfl

theorem of_reads {seen : List Event} (reads : ∀ e ∈ seen, e.1.Reads)
    (succeeded : ∀ e ∈ seen, e.succeeded) : WentWell seen := by
  induction seen with
  | nil => exact nil
  | cons e others ih =>
    obtain ⟨asks, rest⟩ := List.forall_mem_cons.mp reads
    obtain ⟨well, more⟩ := List.forall_mem_cons.mp succeeded
    have first : WentWell [e] := by
      obtain ⟨r, answer⟩ := e
      cases r with
      | query | indexer | relays | price | firstGoesOn | feederFirst =>
        exact single well rfl rfl rfl
      | _ => exact asks.elim
    exact first.append (ih rest more)

end WentWell
end Program

/-- No answer is to blame: a number left its range, or a block is none that the ledger knows. -/
def Failure.IsOwn : Failure → Prop
  | .fault _ | .stage (.unexpectedValue ..) => True
  | _ => False

/-- Where the failure of a stage may come from: an answer, or the stage itself. It is told as a
stage tells it. -/
def Program.Blamed (seen : List Program.Event) (cause : Failure) : Prop :=
  cause.asStage = cause ∧ (Program.Marred seen ∨ cause.IsOwn)

namespace Program.Blamed

theorem within {own seen : List Event} {cause : Failure} (blamed : Blamed own cause)
    (within : own ⊆ seen) : Blamed seen cause :=
  ⟨blamed.1, blamed.2.imp (·.within within) id⟩

theorem behind {seen : List Event} {cause : Failure} (blamed : Blamed seen cause)
    (before : List Event) : Blamed (before ++ seen) cause :=
  blamed.within (List.subset_append_right before seen)

theorem fault (seen : List Event) (cause : Fault) : Blamed seen (.fault cause) :=
  ⟨rfl, .inr trivial⟩

theorem stage {seen : List Event} (e : StageError) (marred : Marred seen) :
    Blamed seen (.stage e) :=
  ⟨rfl, .inl marred⟩

end Program.Blamed
end ValidatorDays
