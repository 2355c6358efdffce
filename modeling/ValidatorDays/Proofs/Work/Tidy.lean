import ValidatorDays.Proofs.Upsert.Batches
import ValidatorDays.Proofs.Work.Both
import ValidatorDays.Proofs.Work.Groups
import ValidatorDays.Stage.Gate
/-! Tidy work: it changes only what it owns, what comes to a good end has left nothing behind,
and what fails has a reason. The parts that stages are made of are tidy, groups of jobs and
transactions among them, and tidy work after tidy work is tidy. -/
namespace ValidatorDays

open Program

namespace Program

variable {α β : Type} {own : Write → Prop}

def Tidy (own : Write → Prop) (p : Program α) : Prop :=
  p.Keeps (fun _ => Request.Within own) (fun seen _ => WentWell seen) Blamed []

/-- Work that changes nothing, and goes on after good answers only. -/
def Inquires (p : Program α) : Prop :=
  p.Keeps (fun _ => Request.Reads) (fun seen _ => ∀ e ∈ seen, e.succeeded) Blamed []

namespace Inquires

theorem read (q : Query) : (readStage q).Inquires := by
  refine ⟨trivial, fun answer => ?_⟩
  cases answer with
  | ok rows => exact List.forall_mem_singleton.mpr trivial
  | error e => exact .stage _ (marred_last [] id)

theorem ask (q : IndexerQuery) : (askIndexer q).Inquires := by
  refine ⟨trivial, fun answer => ?_⟩
  cases answer with
  | ok rows => exact List.forall_mem_singleton.mpr trivial
  | error e => exact .stage _ (marred_last [] id)

theorem askRelays (hashes : List BlockHash) :
    ((relays hashes).mapFailure .asAggregation).Inquires := by
  refine ⟨trivial, fun answer => ?_⟩
  cases answer with
  | ok bids => exact List.forall_mem_singleton.mpr trivial
  | error e => exact .stage _ (marred_last [] id)

theorem both {p : Program α} {q : Program β} (first : p.Inquires) (second : q.Inquires) :
    (p.both q).Inquires := by
  refine (Keeps.both first second .nil).mono ?_ ?_ ?_
  · rintro h r (rfl | ⟨_, _, -, reads⟩)
    · trivial
    · exact reads.elim id id
  · rintro h pair ⟨own, other, woven, well, wellToo⟩ e member
    rcases woven.mem member with mine | theirs | turn
    · exact well e mine
    · exact wellToo e theirs
    · obtain ⟨r, answer⟩ := e
      cases turn
      trivial
  · rintro h cause ⟨own, other, woven, blamed | blamed⟩
    · exact blamed.within woven.first_sublist.subset
    · exact blamed.within woven.second_sublist.subset

theorem tidy {p : Program α} (inquires : p.Inquires) : p.Tidy own :=
  (Keeps.recall inquires (List.forall_mem_nil _)).mono (fun _ _ reads => reads.2.within own)
    (fun _ _ well => .of_reads well.1 well.2) fun _ _ blamed => blamed.2

end Inquires

namespace Tidy

theorem after {p : Program α} (tidy : p.Tidy own) {seen : List Event} (well : WentWell seen) :
    p.Keeps (fun _ => Request.Within own) (fun seen _ => WentWell seen) Blamed seen := by
  refine (Keeps.later tidy seen).mono ?_ ?_ ?_
  · rintro h r ⟨-, -, within⟩
    exact within
  · rintro h a ⟨rest, rfl, more⟩
    exact well.append more
  · rintro h cause ⟨rest, rfl, blamed⟩
    exact blamed.behind seen

theorem bind {p : Program α} {f : α → Program β} (first : p.Tidy own)
    (next : ∀ a, (f a).Tidy own) : (p.bind f).Tidy own :=
  Keeps.bind first fun _ a well => (next a).after well

theorem done (a : α) : (Program.done a).Tidy own := WentWell.nil

theorem fails {cause : Failure} (told : cause.asStage = cause) (reason : cause.IsOwn) :
    (Program.fail cause : Program α).Tidy own := ⟨told, .inr reason⟩

theorem outcome (o : Outcome α)
    (reason : ∀ cause, o = .error cause → cause.asStage = cause ∧ cause.IsOwn) :
    (ofOutcome o).Tidy own := by
  cases o with
  | ok a => exact done a
  | error cause => exact fails (reason cause rfl).1 (reason cause rfl).2

theorem checked (c : Checked α) : (ofOutcome (.ofChecked c)).Tidy own := by
  cases c with
  | ok a => exact done a
  | error fault => exact fails rfl trivial

theorem change (w : Write) (owned : own w) : (writeStage w).Tidy own := by
  simp only [Tidy, writeStage, Program.write, keeps_mapFailure, keeps_bind, keeps_ofOutcome]
  cases w.bound with
  | error fault => exact .fault [] fault
  | ok _ =>
    refine ⟨by simpa [Request.Within, Request.writes] using owned, fun answer => ?_⟩
    cases answer with
    | ok _ => exact .write w
    | error e => exact .stage _ (marred_last [] id)

theorem read (q : Query) : (readStage q).Tidy own := (Inquires.read q).tidy

theorem ask (q : IndexerQuery) : (askIndexer q).Tidy own := (Inquires.ask q).tidy

theorem askRelays (hashes : List BlockHash) :
    ((relays hashes).mapFailure .asAggregation).Tidy own := (Inquires.askRelays hashes).tidy

theorem writes (g : Group) (jobs : List (Job Write))
    (owned : ∀ job ∈ jobs, ∀ w ∈ job.actions, own w) : (g.run .writes jobs).Tidy own :=
  (Carrier.tracked_writes own).run g jobs owned WentWell.nil

theorem fetches (g : Group) (jobs : List (Job EpochRange)) : (g.run .fetches jobs).Tidy own :=
  (Carrier.tracked_fetches own).run g jobs (fun _ _ _ _ => trivial) WentWell.nil

end Tidy

structure InTransaction (seen : List Event) : Prop where
  succeeded : ∀ e ∈ seen, e.succeeded
  writes : (seen.flatMap Event.startsWrite).Perm (seen.flatMap Event.landsWrite)
  fetches : (seen.flatMap Event.startsFetch).Perm (seen.flatMap Event.landsFetch)
  isOpen : (openAfter seen).isSome

namespace InTransaction

theorem begun : InTransaction [⟨.begin, .ok ()⟩] :=
  ⟨by simp [Event.succeeded], .refl _, .refl _, rfl⟩

theorem write {seen : List Event} (inside : InTransaction seen) (w : Write) :
    InTransaction (seen ++ [⟨.write w, .ok ()⟩]) := by
  obtain ⟨statements, isOpen⟩ := Option.isSome_iff_exists.mp inside.isOpen
  constructor
  · intro e he
    rcases List.mem_append.mp he with he | he
    · exact inside.succeeded e he
    · exact List.mem_singleton.mp he ▸ trivial
  · simpa [Event.startsWrite, Event.landsWrite] using inside.writes
  · simpa [Event.startsFetch, Event.landsFetch] using inside.fetches
  · simp [openAfter_append, isOpen, Transaction.after]

theorem commit {seen : List Event} (inside : InTransaction seen) :
    WentWell (seen ++ [⟨.commit, .ok ()⟩]) := by
  constructor
  · intro e he
    rcases List.mem_append.mp he with he | he
    · exact inside.succeeded e he
    · exact List.mem_singleton.mp he ▸ trivial
  · simpa [Event.startsWrite, Event.landsWrite] using inside.writes
  · simpa [Event.startsFetch, Event.landsFetch] using inside.fetches
  · rw [openAfter_append]
    cases openAfter seen <;> rfl

theorem statements {ws : List Write} (owned : ∀ w ∈ ws, own w) {seen : List Event}
    (inside : InTransaction seen) : (ws.forM Program.write).Keeps (fun _ => Request.Within own)
      (fun seen _ => InTransaction seen) (fun seen cause => Blamed seen cause.asStage) seen := by
  induction ws generalizing seen with
  | nil => exact inside
  | cons w others ih =>
    obtain ⟨mine, theirs⟩ := List.forall_mem_cons.mp owned
    have first : (Program.write w).Keeps (fun _ => Request.Within own)
        (fun seen _ => InTransaction seen) (fun seen cause => Blamed seen cause.asStage) seen := by
      simp only [Program.write, keeps_bind, keeps_ofOutcome]
      cases w.bound with
      | error fault => exact .fault seen fault
      | ok _ =>
        refine ⟨by simpa [Request.Within, Request.writes] using mine, fun answer => ?_⟩
        cases answer with
        | ok _ => exact inside.write w
        | error e => exact .stage _ (marred_last seen id)
    exact first.bind fun h _ still => ih theirs still

end InTransaction

namespace Tidy

theorem together (ws : List Write) (owned : ∀ w ∈ ws, own w) : (writeTogether ws).Tidy own := by
  refine (keeps_mapFailure _ _ _).mpr ⟨by simp [Request.Within, Request.writes], fun answer => ?_⟩
  cases answer with
  | error e => exact .stage _ (marred_last [] id)
  | ok _ =>
    refine (InTransaction.statements owned .begun).bind fun h _ inside => ?_
    refine ⟨by simp [Request.Within, Request.writes], fun answer => ?_⟩
    cases answer with
    | ok _ => exact inside.commit
    | error e => exact .stage _ (marred_last h id)

theorem plan (t : Target) (rows : List Row) (batchSize : Nat) :
    (ofOutcome (.ofStage (Batch.plan t rows batchSize))).Tidy own := by
  unfold Batch.plan
  split
  · exact fails rfl trivial
  · exact done _

theorem planned {t : Target} {rows : List Row} {batchSize : Nat} {f : List Batch → Program α}
    (next : ∀ batches, Batch.plan t rows batchSize = .ok batches → (f batches).Tidy own) :
    ((ofOutcome (.ofStage (Batch.plan t rows batchSize))).bind f).Tidy own := by
  cases outcome : Batch.plan t rows batchSize with
  | error e =>
    have tidy : (ofOutcome (.ofStage (Batch.plan t rows batchSize))).Tidy own :=
      plan t rows batchSize
    rw [outcome] at tidy
    exact tidy
  | ok batches => exact next batches outcome

theorem mergeRows (g : Group) (t : Target) (rows : List Row) (batchSize : Nat)
    (owned : ∀ b : Batch, b.target = t → own (.merge b)) :
    (ValidatorDays.mergeRows g t rows batchSize).Tidy own := by
  refine planned fun batches cut => (writes g _ ?_).bind fun _ => done _
  intro job member w action
  obtain ⟨batch, inside, rfl⟩ := List.mem_map.mp member
  cases List.mem_singleton.mp action
  exact owned batch (Batch.target_of_plan cut batch inside)

theorem mergeRowsTogether (t : Target) (rows : List Row) (batchSize : Nat)
    (owned : ∀ b : Batch, b.target = t → own (.merge b)) :
    (ValidatorDays.mergeRowsTogether t rows batchSize).Tidy own := by
  refine planned fun batches cut => ?_
  split
  · exact done _
  · refine (together _ ?_).bind fun _ => done _
    intro w member
    obtain ⟨batch, inside, rfl⟩ := List.mem_map.mp member
    exact owned batch (Batch.target_of_plan cut batch inside)

end Tidy
end Program
end ValidatorDays
