import ValidatorDays.Proofs.Status.Books
import ValidatorDays.Proofs.Work.Both
import ValidatorDays.Proofs.Work.Groups
import ValidatorDays.Proofs.Work.Turns
import ValidatorDays.Stage.Indexed
/-! What may happen. Here runs are built, not taken apart: a work passes where it can come to a
result without a trace in the books, and it may end in some way where a run of it does. -/
namespace ValidatorDays

open Program

namespace Program

variable {α β : Type} {t : StatusTable}

/-- The work can come to that, and leaves the books as they are. -/
def Passes (t : StatusTable) (p : Program α) (a : α) : Prop :=
  ∃ events, Runs p events (.ok a) ∧ (Books.opened t).Agrees events ∧
    (Books.opened t).afterAll events = .opened t

def May (t : StatusTable) (p : Program α) (good : List Event → Outcome α → Prop) : Prop :=
  ∃ events result, Runs p events result ∧ (Books.opened t).Agrees events ∧ good events result

abbrev MaySucceed (t : StatusTable) (p : Program Unit) : Prop :=
  p.May t fun _ result => result = .ok ()

theorem May.mapFailure {p : Program α} {good : List Event → Prop}
    (may : p.May t fun events _ => good events) (f : Failure → Failure) :
    (p.mapFailure f).May t fun events _ => good events := by
  obtain ⟨events, result, run, agrees, ends⟩ := may
  exact ⟨events, _, runs_mapFailure.mpr ⟨result, run, rfl⟩, agrees, ends⟩

theorem MaySucceed.mapFailure {p : Program Unit} (may : p.MaySucceed t) (f : Failure → Failure) :
    (p.mapFailure f).MaySucceed t := by
  obtain ⟨events, _, run, agrees, rfl⟩ := may
  exact ⟨events, _, runs_mapFailure.mpr ⟨.ok (), run, rfl⟩, agrees, rfl⟩

theorem May.onward {p : Program α} {good : List Event → Prop}
    (may : p.May t fun events _ => good events)
    (append : ∀ events, good events → ∀ more, good (events ++ more)) {f : α → Program β} :
    (p.bind f).May t fun events _ => good events := by
  obtain ⟨events, result, run, agrees, ends⟩ := may
  cases result with
  | error cause => exact ⟨events, _, runs_bind.mpr (.inr ⟨cause, run, rfl⟩), agrees, ends⟩
  | ok a =>
    let later := (f a).observe (Books.calm 0) ((Books.opened t).afterAll events)
    refine ⟨events ++ later.1, later.2, runs_bind.mpr (.inl ⟨events, a, later.1, rfl, run, ?_⟩),
      (Books.agrees_append ..).mpr ⟨agrees, ?_⟩, append events ends later.1⟩
    · exact runs_observe ..
    · exact (Books.calm_honest 0).agrees ..

theorem may_start (w : Write) (next : Unit → Program α) :
    (Program.ask (.startWrite w) next).May t fun events _ => ⟨.startWrite w, ()⟩ ∈ events := by
  let later := (next ()).observe (Books.calm 0) (.opened t)
  refine ⟨⟨.startWrite w, ()⟩ :: later.1, later.2, .ask (r := .startWrite w) () ?_, ⟨trivial, ?_⟩,
    List.mem_cons_self⟩
  · exact runs_observe ..
  · exact (Books.calm_honest 0).agrees ..

namespace Passes

theorem done (a : α) : (Program.done a).Passes t a := ⟨[], .done a, trivial, rfl⟩

theorem may {p : Program α} {f : α → Program β} {a : α} {good : List Event → Outcome β → Prop}
    (first : p.Passes t a) (rest : (f a).May t good)
    (behind : ∀ before events result, good events result → good (before ++ events) result) :
    (p.bind f).May t good := by
  obtain ⟨before, run, agrees, after⟩ := first
  obtain ⟨events, result, others, agreesToo, ends⟩ := rest
  refine ⟨before ++ events, result, runs_bind.mpr (.inl ⟨before, a, events, rfl, run, others⟩),
    (Books.agrees_append ..).mpr ⟨agrees, ?_⟩, behind before events result ends⟩
  rw [after]
  exact agreesToo

theorem before {p : Program α} {f : α → Program Unit} {a : α} (first : p.Passes t a)
    (rest : (f a).MaySucceed t) : (p.bind f).MaySucceed t :=
  first.may rest fun _ _ _ ends => ends

theorem bind {p : Program α} {f : α → Program β} {a : α} {b : β} (first : p.Passes t a)
    (rest : (f a).Passes t b) : (p.bind f).Passes t b := by
  obtain ⟨before, run, agrees, after⟩ := first
  obtain ⟨events, others, agreesToo, afterwards⟩ := rest
  refine ⟨before ++ events, runs_bind.mpr (.inl ⟨before, a, events, rfl, run, others⟩),
    (Books.agrees_append ..).mpr ⟨agrees, ?_⟩, ?_⟩
  · rw [after]
    exact agreesToo
  · rw [Books.afterAll_append, after, afterwards]

theorem mapFailure {p : Program α} {a : α} (passes : p.Passes t a) (f : Failure → Failure) :
    (p.mapFailure f).Passes t a := by
  obtain ⟨events, run, agrees, after⟩ := passes
  exact ⟨events, runs_mapFailure.mpr ⟨.ok a, run, rfl⟩, agrees, after⟩

theorem outcome {o : Outcome α} {a : α} (same : o = .ok a) : (ofOutcome o).Passes t a := by
  subst same
  exact done a

theorem turned {own events : List Event} {b : Books} (woven : Woven own [] events)
    (agrees : b.Agrees own) : b.Agrees events ∧ b.afterAll events = b.afterAll own := by
  generalize nothing : [] = other at woven
  induction woven with
  | nil => exact ⟨trivial, rfl⟩
  | first _ e ih =>
    obtain ⟨before, last⟩ := (Books.agrees_append ..).mp agrees
    obtain ⟨agreesToo, same⟩ := ih before nothing
    rw [Books.agrees_append, Books.afterAll_append, Books.afterAll_append, same]
    exact ⟨⟨agreesToo, last⟩, rfl⟩
  | second => cases List.append_ne_nil_of_right_ne_nil _ (List.cons_ne_nil _ _) nothing.symm
  | turn _ mine ih =>
    obtain ⟨agreesToo, same⟩ := ih agrees nothing
    rw [Books.agrees_append, Books.afterAll_append, same]
    exact ⟨⟨agreesToo, trivial, trivial⟩, Books.after_reads _ trivial⟩

theorem both {p : Program α} {q : Program β} {a : α} {b : β} (first : p.Passes t a)
    (second : q.Passes t b) : (p.both q).Passes t (a, b) := by
  obtain ⟨own, run, agrees, after⟩ := first
  obtain ⟨other, runToo, agreesToo, afterwards⟩ := second
  obtain ⟨events, woven, both⟩ := run.both runToo
  obtain ⟨agreesFirst, same⟩ := turned woven agrees
  refine ⟨events ++ other, both, (Books.agrees_append ..).mpr ⟨agreesFirst, ?_⟩, ?_⟩
  · rw [same, after]
    exact agreesToo
  · rw [Books.afterAll_append, same, after, afterwards]

theorem read (q : Query) (rows : q.Rows)
    (answers : (Books.opened t).Answers ⟨.query q, .ok rows⟩) : (readStage q).Passes t rows :=
  ⟨[⟨.query q, .ok rows⟩], .ask (r := .query q) (.ok rows) (.done rows), ⟨answers, trivial⟩,
    (Books.opened t).after_reads trivial⟩

theorem ask (q : IndexerQuery) (rows : q.Rows) : (askIndexer q).Passes t rows :=
  ⟨[⟨.indexer q, .ok rows⟩], .ask (r := .indexer q) (.ok rows) (.done rows), ⟨trivial, trivial⟩,
    rfl⟩

theorem askRelays (hashes : List BlockHash) :
    ((relays hashes).mapFailure .asAggregation).Passes t [] :=
  ⟨[⟨.relays hashes, .ok []⟩], .ask (r := .relays hashes) (.ok []) (.done []), ⟨trivial, trivial⟩,
    rfl⟩

theorem gate (day : Day) : (ensureDayFinalized day).Passes t () :=
  ⟨[⟨.query (.finalizedEpochs day.epochs), .ok epochsPerDay⟩],
    .ask (r := .query (.finalizedEpochs day.epochs)) (.ok epochsPerDay) (.done ()),
    ⟨trivial, trivial⟩, rfl⟩

theorem status (day : Day) : (statusOf day).Passes t (t.status day) :=
  ⟨[⟨.query (.status day), .ok (t day)⟩],
    .ask (r := .query (.status day)) (.ok (t day)) (.done _), ⟨rfl, trivial⟩, rfl⟩

theorem exported (day : Day) {rs : Requirements} (exported : ∀ r ∈ rs, t.Exported r.1 r.2) :
    (ensureExported day rs).Passes t () := by
  have nothingMissing : (missingExports rs).Passes t [] := by
    induction rs with
    | nil => exact done []
    | cons r others ih =>
      obtain ⟨first, rest⟩ := List.forall_mem_cons.mp exported
      refine (status r.1).bind ((ih rest).bind ?_)
      have there : (t.status r.1).exported r.2 = true := first
      rw [if_pos there]
      exact done []
  exact (nothingMissing.mapFailure .asStage).bind (done ())

end Passes
end Program

theorem Batch.plan_nil (t : Target) (batchSize : Nat) : plan t [] batchSize = .ok [] := by
  simp [plan, pieces]

namespace Program.Passes

variable {t : StatusTable}

theorem mergeRows (g : Group) (target : Target) (batchSize : Nat) :
    (ValidatorDays.mergeRows g target [] batchSize).Passes t 0 := by
  refine (outcome (a := []) ?_).bind ?_
  · rw [Batch.plan_nil]
    rfl
  · change ((g.run .writes []).bind fun _ => Program.done 0).Passes t 0
    rw [Group.run_nothing]
    exact done 0

theorem mergeRowsTogether (target : Target) (batchSize : Nat) :
    (ValidatorDays.mergeRowsTogether target [] batchSize).Passes t 0 := by
  refine (outcome (a := []) ?_).bind (done 0)
  rw [Batch.plan_nil]
  rfl

theorem fetches (g : Group) (range : EpochRange) :
    (g.run .fetches [FailedAttestations.window range]).Passes t [[]] := by
  rw [Group.run_first]
  refine ⟨[⟨.startFetch range, ()⟩, ⟨.awaitFetches [range], some (⟨0, Nat.zero_lt_one⟩, .ok [])⟩],
    ?_, ⟨trivial, trivial, trivial⟩, rfl⟩
  refine .ask (r := .startFetch range) () ?_
  change Runs (Group.loop _ _ _ _) _ _
  rw [Group.loop_waits _ _ _ rfl (List.cons_ne_nil _ _)]
  refine .ask (r := .awaitFetches [range]) (some (⟨0, Nat.zero_lt_one⟩, .ok [])) ?_
  change Runs (Group.loop _ _ _ ⟨[], [], [[]], none⟩) _ _
  rw [Group.loop_done]
  exact .done _

end Program.Passes

end ValidatorDays
