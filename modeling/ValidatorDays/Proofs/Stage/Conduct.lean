import ValidatorDays.Proofs.Work.Successes
import ValidatorDays.Proofs.Work.Tidy
import ValidatorDays.Stage.Day
/-! The course of every stage. It begins at the gate, makes sure of what it requires, changes what
it owns, and marks its category last, if all that went before went well. `exportCategory_gated`
says so of the stages of all categories at once. -/
namespace ValidatorDays

open Program

/-- What the stage of a category requires, as it asks for it. -/
def requirementsOf (day : Day) : Category → Checked Requirements
  | .consensusRewards => ConsensusRewards.requirements day
  | .totalPerformance => TotalPerformance.requirements day
  | .failedAttestations | .syncDuties | .withdrawalsDeposits | .blockStats | .balance
  | .executionRewards => return []

theorem Day.previous_eq {day previous : Day} (before : day.previous = .ok previous) :
    previous = ⟨max (day.number - 1) 0⟩ := by
  obtain ⟨n, checked, same⟩ := bind_eq_ok.mp before
  obtain ⟨-, rfl⟩ := Bounds.check_eq_ok_iff.mp checked
  cases same
  rfl

theorem consensusRewards_required {day : Day} {rs : Requirements}
    (required : requirementsOf day .consensusRewards = .ok rs) :
    rs = [(day, .balance), (day, .withdrawalsDeposits)] ++
      if Day.genesis < day then [(⟨day.number - 1⟩, .balance),
        (⟨day.number - 1⟩, .withdrawalsDeposits)] else [] := by
  simp only [requirementsOf, ConsensusRewards.requirements] at required
  by_cases later : Day.genesis < day
  · rw [if_pos later] at required ⊢
    obtain ⟨previous, before, same⟩ := bind_eq_ok.mp required
    cases same
    have positive : 0 < day.number := later
    rw [Day.previous_eq before, Int.max_eq_left (by omega)]
    rfl
  · rw [if_neg later] at required ⊢
    cases required
    rfl

theorem totalPerformance_required {day : Day} {rs : Requirements}
    (required : requirementsOf day .totalPerformance = .ok rs) :
    rs = [(day, .consensusRewards), (day, .executionRewards),
      (⟨max (day.number - 1) 0⟩, .consensusRewards),
      (⟨max (day.number - 1) 0⟩, .executionRewards)] := by
  obtain ⟨previous, before, same⟩ := bind_eq_ok.mp required
  cases same
  rw [Day.previous_eq before]

namespace Program

def Event.Shows (day : Day) (category : Category) : Event → Prop
  | ⟨.query (.status d), .ok (some row)⟩ | ⟨.query (.statusForUpdate d), .ok (some row)⟩ =>
    d = day ∧ row.exported category = true
  | ⟨.write (.markExported d c), .ok ()⟩ => d = day ∧ c = category
  | _ => False

def Shown (seen : List Event) (r : Day × Category) : Prop := ∃ e ∈ seen, e.Shows r.1 r.2

def Denied (seen : List Event) (r : Day × Category) : Prop :=
  ∃ row : Option DayStatus, ⟨.query (.status r.1), .ok row⟩ ∈ seen ∧
    (row.getD .blank).exported r.2 = false

theorem Shown.append {seen : List Event} {r : Day × Category} (shown : Shown seen r)
    (more : List Event) : Shown (seen ++ more) r :=
  shown.imp fun _ h => ⟨List.mem_append_left more h.1, h.2⟩

theorem Shown.behind {seen : List Event} {r : Day × Category} (shown : Shown seen r)
    (before : List Event) : Shown (before ++ seen) r :=
  shown.imp fun _ h => ⟨List.mem_append_right before h.1, h.2⟩

theorem Denied.behind {seen : List Event} {r : Day × Category} (denied : Denied seen r)
    (before : List Event) : Denied (before ++ seen) r :=
  denied.imp fun _ h => ⟨List.mem_append_right before h.1, h.2⟩

theorem Denied.append {seen : List Event} {r : Day × Category} (denied : Denied seen r)
    (more : List Event) : Denied (seen ++ more) r :=
  denied.imp fun _ h => ⟨List.mem_append_left more h.1, h.2⟩

end Program

namespace Stage

def gate (day : Day) : Request := .query (.finalizedEpochs day.epochs)

def mark (day : Day) (category : Category) : Request := .write (.markExported day category)

/-- What a stage may change on its way: nothing about any status, and totals only of its day. -/
def Owns (day : Day) (category : Category) : Write → Prop
  | .markExported .. | .setFinished _ => False
  | .cumulativeTotals d _ => category = .totalPerformance ∧ d = day
  | _ => True

def OwnOnly (day : Day) (category : Category) (seen : List Event) : Prop :=
  ∀ e ∈ seen, e.1.Within (Owns day category)

theorem OwnOnly.append {day : Day} {category : Category} {seen more : List Event}
    (first : OwnOnly day category seen) (rest : OwnOnly day category more) :
    OwnOnly day category (seen ++ more) :=
  fun e he => (List.mem_append.mp he).elim (first e) (rest e)

/-- A stage ends well with its mark, and only when all that went before went well. -/
def Marked (day : Day) (category : Category) (seen : List Event) : Prop :=
  ∃ before, seen = before ++ [⟨mark day category, .ok ()⟩] ∧ WentWell before ∧
    OwnOnly day category before

/-- A stage that fails has not marked anything, though the mark may be what failed. -/
def Unmarked (day : Day) (category : Category) (seen : List Event) : Prop :=
  OwnOnly day category seen ∨ ∃ before e, seen = before ++ [⟨mark day category, .error e⟩] ∧
    OwnOnly day category before

theorem Marked.behind {day : Day} {category : Category} {seen before : List Event}
    (marked : Marked day category seen) (ownOnly : OwnOnly day category before)
    (well : WentWell before) : Marked day category (before ++ seen) := by
  obtain ⟨inner, rfl, wellToo, ownToo⟩ := marked
  exact ⟨before ++ inner, by simp, well.append wellToo, ownOnly.append ownToo⟩

theorem Unmarked.behind {day : Day} {category : Category} {seen before : List Event}
    (unmarked : Unmarked day category seen) (ownOnly : OwnOnly day category before) :
    Unmarked day category (before ++ seen) := by
  rcases unmarked with ownToo | ⟨inner, e, rfl, ownToo⟩
  · exact .inl (ownOnly.append ownToo)
  · exact .inr ⟨before ++ inner, e, by simp, ownOnly.append ownToo⟩

def MarksLast (day : Day) (category : Category) (seen : List Event) (r : Request) : Prop :=
  OwnOnly day category seen ∧
    (r.Within (Owns day category) ∨ (r = mark day category ∧ WentWell seen))

def Closes (day : Day) (category : Category) (p : Program Unit) : Prop :=
  p.Keeps (MarksLast day category) (fun seen _ => Marked day category seen)
    (fun seen cause => Unmarked day category seen ∧ Blamed seen cause) []

theorem closes_mark (day : Day) (category : Category) :
    Closes day category (markExported day category) := by
  refine ⟨⟨by simp [OwnOnly], .inr ⟨rfl, .nil⟩⟩, fun answer => ?_⟩
  cases answer with
  | ok _ => exact ⟨[], rfl, .nil, by simp [OwnOnly]⟩
  | error e => exact ⟨.inr ⟨[], e, rfl, by simp [OwnOnly]⟩, .stage _ (marred_last [] id)⟩

theorem closes_bind {α : Type} {day : Day} {category : Category} {p : Program α}
    {f : α → Program Unit} (tidy : p.Tidy (Owns day category))
    (next : ∀ a, Closes day category (f a)) : Closes day category (p.bind f) := by
  have first : p.Keeps (MarksLast day category)
      (fun seen _ => OwnOnly day category seen ∧ WentWell seen)
      (fun seen cause => Unmarked day category seen ∧ Blamed seen cause) [] :=
    (tidy.recall (by simp)).mono (fun _ _ allowed => ⟨allowed.1, .inl allowed.2⟩) (fun _ _ => id)
      fun _ _ failed => ⟨.inl failed.1, failed.2⟩
  refine first.bind fun before a ⟨ownOnly, well⟩ => ?_
  refine ((next a).later before).mono ?_ ?_ ?_
  · rintro _ r ⟨own, rfl, ownToo, within | ⟨rfl, wellToo⟩⟩
    · exact ⟨ownOnly.append ownToo, .inl within⟩
    · exact ⟨ownOnly.append ownToo, .inr ⟨rfl, well.append wellToo⟩⟩
  · rintro _ _ ⟨own, rfl, marked⟩
    exact marked.behind ownOnly well
  · rintro _ cause ⟨own, rfl, unmarked, blamed⟩
    exact ⟨unmarked.behind ownOnly, blamed.behind before⟩

def Met (day : Day) (category : Category) (seen : List Event) : Prop :=
  ∃ rs, requirementsOf day category = .ok rs ∧ ∀ r ∈ rs, Shown seen r

def Unmet (day : Day) (category : Category) (seen : List Event) : Prop :=
  ∃ rs, requirementsOf day category = .ok rs ∧ ∃ r ∈ rs, Denied seen r

theorem Met.append {day : Day} {category : Category} {seen : List Event}
    (met : Met day category seen) (more : List Event) : Met day category (seen ++ more) :=
  met.imp fun _ h => ⟨h.1, fun r hr => (h.2 r hr).append more⟩

theorem Met.behind {day : Day} {category : Category} {seen : List Event}
    (met : Met day category seen) (before : List Event) : Met day category (before ++ seen) :=
  met.imp fun _ h => ⟨h.1, fun r hr => (h.2 r hr).behind before⟩

end Stage

theorem missingExports_keeps (own : Write → Prop) (rs : Requirements) :
    (missingExports rs).Keeps (fun _ => Request.Within own)
      (fun seen missing => WentWell seen ∧ (missing = [] → ∀ r ∈ rs, Shown seen r) ∧
        (missing ≠ [] → ∃ r ∈ rs, Denied seen r))
      (fun seen cause => Marred seen ∧ ∃ e, cause = .database e) [] := by
  induction rs with
  | nil => exact ⟨.nil, by simp, by simp⟩
  | cons r rest ih =>
    obtain ⟨day, category⟩ := r
    refine ⟨by simp [Request.Within, Request.writes], fun answer => ?_⟩
    cases answer with
    | error e => exact ⟨marred_last [] id, e, rfl⟩
    | ok row =>
      let read : Event := ⟨.query (.status day), .ok row⟩
      have others : (missingExports rest).Keeps (fun _ => Request.Within own)
          (fun h missing => ∃ own, h = [read] ++ own ∧ WentWell own ∧
            (missing = [] → ∀ r ∈ rest, Shown own r) ∧ (missing ≠ [] → ∃ r ∈ rest, Denied own r))
          (fun seen cause => Marred seen ∧ ∃ e, cause = .database e) [read] := by
        refine (ih.later [read]).mono ?_ (fun _ _ => id) ?_
        · rintro _ r ⟨-, -, within⟩
          exact within
        · rintro _ cause ⟨seen, rfl, marred, told⟩
          exact ⟨marred.behind _, told⟩
      refine others.bind ?_
      rintro _ missing ⟨seen, rfl, well, all, lacking⟩
      refine ⟨(WentWell.query _ row).append well, ?_⟩
      by_cases exported : (row.getD .blank).exported category = true
      · have shown : Shown [read] (day, category) := by
          cases row with
          | none => cases exported
          | some row => exact ⟨read, List.mem_singleton_self _, rfl, exported⟩
        simp only [if_pos exported]
        refine ⟨fun allShown => ?_, fun found => ?_⟩
        · exact List.forall_mem_cons.mpr
            ⟨shown.append seen, fun r hr => (all allShown r hr).behind [read]⟩
        · obtain ⟨r, hr, denied⟩ := lacking found
          exact ⟨r, List.mem_cons_of_mem _ hr, denied.behind [read]⟩
      · simp only [if_neg exported]
        refine ⟨fun allShown => by simp at allShown, fun _ => ?_⟩
        exact ⟨(day, category), List.mem_cons_self, row, by simp [read], by simpa using exported⟩

theorem ensureExported_keeps (own : Write → Prop) (day : Day) (rs : Requirements) :
    (ensureExported day rs).Keeps (fun _ => Request.Within own)
      (fun seen _ => WentWell seen ∧ ∀ r ∈ rs, Shown seen r)
      (fun seen cause => cause.asStage = cause ∧ (Marred seen ∨ ∃ r ∈ rs, Denied seen r)) [] := by
  have read : ((missingExports rs).mapFailure .asStage).Keeps (fun _ => Request.Within own)
      (fun seen missing => WentWell seen ∧ (missing = [] → ∀ r ∈ rs, Shown seen r) ∧
        (missing ≠ [] → ∃ r ∈ rs, Denied seen r))
      (fun seen cause => cause.asStage = cause ∧ (Marred seen ∨ ∃ r ∈ rs, Denied seen r)) [] := by
    refine (keeps_mapFailure _ _ _).mpr ?_
    refine (missingExports_keeps own rs).mono (fun _ _ => id) (fun _ _ => id) ?_
    rintro seen _ ⟨marred, e, rfl⟩
    exact ⟨rfl, .inl marred⟩
  refine read.bind ?_
  rintro seen missing ⟨well, all, lacking⟩
  cases missing with
  | nil => exact ⟨well, all rfl⟩
  | cons first others => exact ⟨rfl, .inr (lacking (by simp))⟩

namespace Stage

def Passed (day : Day) (seen : List Event) : Prop :=
  ∃ n rest, seen = ⟨gate day, .ok n⟩ :: rest ∧ epochsPerDay ≤ n

def TooFewFinal (day : Day) (seen : List Event) : Prop :=
  ∃ n, ⟨gate day, .ok n⟩ ∈ seen ∧ n < epochsPerDay

/-- What a stage may ask for: first the gate, then what it owns, and changes only once its
requirements are met; last its mark. -/
def Allows (day : Day) (category : Category) (seen : List Event) (r : Request) : Prop :=
  (seen = [] ∧ r = gate day) ∨
    (Passed day seen ∧ OwnOnly day category seen ∧
      ((r.Within (Owns day category) ∧ (r.writes ≠ [] → Met day category seen)) ∨
        (r = mark day category ∧ WentWell seen ∧ Met day category seen)))

def Reason (day : Day) (category : Category) (seen : List Event) (cause : Failure) : Prop :=
  Marred seen ∨ cause.IsOwn ∨ Unmet day category seen ∨ TooFewFinal day seen

structure Failed (day : Day) (category : Category) (seen : List Event) (cause : Failure) :
    Prop where
  unmarked : Unmarked day category seen
  told : cause.asStage = cause
  reason : Reason day category seen cause

/-- The gate first, then what the stage owns, and its mark last. -/
def Gated (day : Day) (category : Category) (p : Program Unit) : Prop :=
  p.Keeps (Allows day category) (fun seen _ => Marked day category seen)
    (Failed day category) []

theorem ownOnly_gate (day : Day) (category : Category) (answer : (gate day).Answer) :
    OwnOnly day category [⟨gate day, answer⟩] := by
  simp [OwnOnly, gate, Request.Within, Request.writes]

theorem ensureExported_allowed {day : Day} {category : Category} {rs : Requirements}
    (needed : requirementsOf day category = .ok rs) {n : Int} (finalized : epochsPerDay ≤ n) :
    (ensureExported day rs).Keeps (Allows day category)
      (fun seen _ => ∃ own, seen = [⟨gate day, .ok n⟩] ++ own ∧ OwnOnly day category own ∧
        WentWell own ∧ ∀ r ∈ rs, Shown own r) (Failed day category) [⟨gate day, .ok n⟩] := by
  have kept := ensureExported_keeps (fun _ => False) day rs
  refine ((kept.recall (by simp)).later [⟨gate day, .ok n⟩]).mono ?_ ?_ ?_
  · rintro _ r ⟨own, rfl, silent, within⟩
    have nothing : r.writes = [] := List.eq_nil_iff_forall_not_mem.mpr within
    have ownOnly : OwnOnly day category own := fun e he w hw => (silent e he w hw).elim
    refine .inr ⟨⟨n, own, rfl, finalized⟩, (ownOnly_gate day category _).append ownOnly, .inl ?_⟩
    exact ⟨fun w hw => (within w hw).elim, fun changes => absurd nothing changes⟩
  · rintro _ _ ⟨own, rfl, silent, well, shown⟩
    exact ⟨own, rfl, fun e he w hw => (silent e he w hw).elim, well, shown⟩
  · rintro _ cause ⟨own, rfl, silent, told, reason⟩
    have ownOnly : OwnOnly day category own := fun e he w hw => (silent e he w hw).elim
    refine ⟨.inl ((ownOnly_gate day category _).append ownOnly), told, ?_⟩
    rcases reason with marred | ⟨r, hr, denied⟩
    · exact .inl (marred.behind _)
    · exact .inr (.inr (.inl ⟨rs, needed, r, hr, denied.behind _⟩))

theorem requires_keeps {day : Day} {category : Category} {p : Program Unit}
    (closes : Closes day category p) {n : Int} (finalized : epochsPerDay ≤ n) :
    ((ofOutcome (.ofChecked (requirementsOf day category))).bind fun rs =>
      (ensureExported day rs).bind fun _ => p).Keeps (Allows day category)
        (fun seen _ => Marked day category seen) (Failed day category)
        [⟨gate day, .ok n⟩] := by
  have ownOnly := ownOnly_gate day category (.ok n)
  rw [keeps_bind, keeps_ofOutcome]
  cases needed : requirementsOf day category with
  | error fault => exact ⟨.inl ownOnly, rfl, .inr (.inl trivial)⟩
  | ok rs =>
    refine (ensureExported_allowed needed finalized).bind ?_
    rintro _ _ ⟨own, rfl, ownToo, well, shown⟩
    have passed (rest : List Event) : Passed day (([⟨gate day, .ok n⟩] ++ own) ++ rest) :=
      ⟨n, own ++ rest, rfl, finalized⟩
    have met : Met day category ([⟨gate day, .ok n⟩] ++ own) :=
      ⟨rs, needed, fun r hr => (shown r hr).behind _⟩
    have wellSoFar : WentWell ([⟨gate day, .ok n⟩] ++ own) :=
      (WentWell.query (.finalizedEpochs day.epochs) n).append well
    have ownSoFar := ownOnly.append ownToo
    refine (Keeps.later closes ([⟨gate day, .ok n⟩] ++ own)).mono ?_ ?_ ?_
    · rintro _ r ⟨rest, rfl, ownRest, within | ⟨rfl, wellRest⟩⟩
      · exact .inr ⟨passed rest, ownSoFar.append ownRest,
          .inl ⟨within, fun _ => met.append rest⟩⟩
      · exact .inr ⟨passed rest, ownSoFar.append ownRest,
          .inr ⟨rfl, wellSoFar.append wellRest, met.append rest⟩⟩
    · rintro _ _ ⟨rest, rfl, marked⟩
      exact marked.behind ownSoFar wellSoFar
    · rintro _ cause ⟨rest, rfl, unmarked, told, reason⟩
      refine ⟨unmarked.behind ownSoFar, told, ?_⟩
      rcases reason with marred | isOwn
      · exact .inl (marred.behind _)
      · exact .inr (.inl isOwn)

theorem gated_of_requires {day : Day} {category : Category} {p : Program Unit}
    (closes : Closes day category p) :
    Gated day category ((ensureDayFinalized day).bind fun _ =>
      (ofOutcome (.ofChecked (requirementsOf day category))).bind fun rs =>
        (ensureExported day rs).bind fun _ => p) := by
  refine ⟨.inl ⟨rfl, rfl⟩, fun answer => ?_⟩
  have ownOnly := ownOnly_gate day category answer
  cases answer with
  | error e => exact ⟨.inl ownOnly, rfl, .inl (marred_last [] id)⟩
  | ok n =>
    refine (keeps_bind (ofOutcome (.ofStage (checkFinalized day n))) _ _).mpr ?_
    by_cases tooFew : n < epochsPerDay
    · rw [keeps_ofOutcome, checkFinalized, if_pos tooFew]
      exact ⟨.inl ownOnly, rfl, .inr (.inr (.inr ⟨n, List.mem_singleton_self _, tooFew⟩))⟩
    · rw [keeps_ofOutcome, checkFinalized, if_neg tooFew]
      exact requires_keeps closes (Int.not_lt.mp tooFew)

theorem gated_of_closes {day : Day} {category : Category} {p : Program Unit}
    (free : requirementsOf day category = .ok []) (closes : Closes day category p) :
    Gated day category ((ensureDayFinalized day).bind fun _ => p) := by
  have plain := gated_of_requires closes
  rw [free] at plain
  exact plain

theorem syncDuties_gated (settings : Settings) (day : Day) :
    Gated day .syncDuties (SyncDuties.stage settings day) := by
  refine gated_of_closes rfl (closes_bind (.ask _) fun duties => ?_)
  exact closes_bind (.mergeRowsTogether _ _ _ fun _ _ => trivial) fun _ => closes_mark _ _

theorem balances_gated (settings : Settings) (day : Day) :
    Gated day .balance (BalanceSummary.stage settings day) := by
  refine gated_of_closes rfl (closes_bind (.ask _) fun balances => ?_)
  exact closes_bind (.mergeRows _ _ _ _ fun _ _ => trivial) fun _ => closes_mark _ _

theorem blockStats_gated (settings : Settings) (day : Day) :
    Gated day .blockStats (BlockStats.stage settings day) := by
  refine gated_of_closes rfl (closes_bind (Inquires.both (.read _) (.read _)).tidy ?_)
  rintro ⟨counts, slashings⟩
  refine closes_bind (.mergeRows _ _ _ _ fun _ _ => trivial) fun _ => ?_
  exact closes_bind (.mergeRows _ _ _ _ fun _ _ => trivial) fun _ => closes_mark _ _

theorem failedAttestations_gated (settings : Settings) (day : Day) :
    Gated day .failedAttestations (FailedAttestations.stage settings day) := by
  refine gated_of_closes rfl (closes_bind (.checked _) fun windows => ?_)
  refine closes_bind (.fetches _ _) fun partials => ?_
  refine closes_bind (.checked _) fun failures => ?_
  exact closes_bind (.mergeRows _ _ _ _ fun _ _ => trivial) fun _ => closes_mark _ _

theorem transfers_gated (settings : Settings) (day : Day) :
    Gated day .withdrawalsDeposits (Transfers.stage settings day) := by
  refine gated_of_closes rfl (closes_bind (.checked _) fun range => ?_)
  refine closes_bind (.checked _) fun (first, stop) => ?_
  refine closes_bind (Inquires.both (.read _) (.read _)).tidy fun (deposits, withdrawals) => ?_
  refine closes_bind (.plan _ _ _) fun depositBatches => ?_
  refine closes_bind (.plan _ _ _) fun withdrawalBatches => ?_
  split
  · exact closes_mark _ _
  · refine closes_bind (.together _ ?_) fun _ => closes_mark _ _
    intro w member
    obtain ⟨batch, -, rfl⟩ := List.mem_map.mp member
    trivial

theorem byProposer_isOwn (canonical : List CanonicalBlock) (blocks : List BlockReward)
    (bribes : ExecutionRewards.Bribes) (cause : Failure)
    (failed : ExecutionRewards.byProposer canonical blocks bribes = .error cause) :
    cause.asStage = cause ∧ cause.IsOwn := by
  unfold ExecutionRewards.byProposer at failed
  generalize ([] : Tally ExecutionRewards) = rewards at failed
  induction blocks generalizing rewards with
  | nil => cases failed
  | cons block others ih =>
    rw [List.foldlM_cons] at failed
    cases known : lastFor? block.number (canonical.map fun c => (c.number, c.proposer)) with
    | none =>
      simp only [known] at failed
      cases failed
      exact ⟨rfl, trivial⟩
    | some proposer =>
      simp only [known] at failed
      cases changed : Tally.change proposer (ExecutionRewards.addBlock block bribes) rewards with
      | error fault =>
        rw [changed] at failed
        cases failed
        exact ⟨rfl, trivial⟩
      | ok changed' =>
        rw [changed] at failed
        exact ih changed' failed

theorem executionRewards_gated (settings : Settings) (day : Day) :
    Gated day .executionRewards (ExecutionRewards.stage settings day) := by
  refine gated_of_closes rfl (closes_bind (.read _) fun canonical => ?_)
  refine closes_bind (.ask _) fun blocks => ?_
  refine closes_bind (.askRelays _) fun bribes => ?_
  refine closes_bind (.outcome _ (byProposer_isOwn canonical blocks bribes)) fun rewards => ?_
  exact closes_bind (.mergeRowsTogether _ _ _ fun _ _ => trivial) fun _ => closes_mark _ _

theorem consensusRewards_job_actions {day : Day} {rewards : ConsensusRewards.Rewards}
    {range : IndexRange} {job : Job Write}
    (planned : ConsensusRewards.job day rewards range = .ok job) : ∃ batches,
      Batch.plan ConsensusRewards.target (ConsensusRewards.rows day range rewards)
        (ConsensusRewards.rows day range rewards).length = .ok batches ∧
      job.actions = batches.map .merge ++ [.deriveRewards day range] := by
  obtain ⟨batches, cut, same⟩ := bind_eq_ok.mp planned
  cases same
  exact ⟨batches, cut, Job.actions_ending ..⟩

theorem consensusRewards_job_owned {own : Write → Prop} {day : Day}
    {rewards : ConsensusRewards.Rewards} {range : IndexRange} {job : Job Write}
    (merges : ∀ b : Batch, b.target = ConsensusRewards.target → own (.merge b))
    (derives : own (.deriveRewards day range))
    (planned : ConsensusRewards.job day rewards range = .ok job) : ∀ w ∈ job.actions, own w := by
  obtain ⟨batches, cut, actions⟩ := consensusRewards_job_actions planned
  intro w action
  rw [actions] at action
  rcases List.mem_append.mp action with merged | derived
  · obtain ⟨batch, inside, rfl⟩ := List.mem_map.mp merged
    exact merges batch (Batch.target_of_plan cut batch inside)
  · cases List.mem_singleton.mp derived
    exact derives

theorem consensusRewards_job_isOwn {day : Day} {rewards : ConsensusRewards.Rewards}
    {range : IndexRange} {e : StageError}
    (failed : ConsensusRewards.job day rewards range = .error e) : (Failure.stage e).IsOwn := by
  rcases bind_eq_error.mp failed with uncut | ⟨batches, -, impossible⟩
  · unfold Batch.plan at uncut
    split at uncut
    · cases uncut
      trivial
    · cases uncut
  · cases impossible

theorem consensusRewards_jobs {own : Write → Prop} {day : Day}
    (merges : ∀ b : Batch, b.target = ConsensusRewards.target → own (.merge b))
    (derives : ∀ range, own (.deriveRewards day range)) (rewards : ConsensusRewards.Rewards)
    (ranges : List IndexRange) :
    (∀ e, ranges.mapM (ConsensusRewards.job day rewards) = .error e → (Failure.stage e).IsOwn) ∧
    ∀ jobs, ranges.mapM (ConsensusRewards.job day rewards) = .ok jobs →
      ∀ job ∈ jobs, ∀ w ∈ job.actions, own w := by
  constructor
  · intro e stopped
    obtain ⟨range, -, failed⟩ := mapM_error stopped
    exact consensusRewards_job_isOwn failed
  · intro jobs planned job member
    obtain ⟨range, -, first⟩ := mapM_mem planned member
    exact consensusRewards_job_owned merges (derives range) first

theorem consensusRewards_gated (settings : Settings) (day : Day) :
    Gated day .consensusRewards (ConsensusRewards.stage settings day) := by
  refine gated_of_requires (closes_bind (.ask _) fun incomes => ?_)
  refine closes_bind (.checked _) fun rewards => ?_
  refine closes_bind (.checked _) fun proposers => ?_
  refine closes_bind (.read _) fun known => ?_
  let ranges := IndexRange.split (max known proposers) settings.upsertBatch
  have merges : ∀ b : Batch, b.target = ConsensusRewards.target →
      Owns day .consensusRewards (.merge b) := fun _ _ => trivial
  obtain ⟨isOwn, owned⟩ := consensusRewards_jobs merges (fun _ => trivial) rewards ranges
  change Closes _ _ ((ofOutcome (.ofStage (ranges.mapM (ConsensusRewards.job day rewards)))).bind _)
  cases planned : ranges.mapM (ConsensusRewards.job day rewards) with
  | error e => exact ⟨.inl (by simp [OwnOnly]), rfl, .inr (isOwn e planned)⟩
  | ok jobs =>
    change Closes _ _ (((settings.group "cl_rewards").run .writes jobs).bind _)
    exact closes_bind (.writes _ jobs (owned jobs planned)) fun _ => closes_mark _ _

theorem totalPerformance_gated (settings : Settings) (day : Day) :
    Gated day .totalPerformance (TotalPerformance.stage settings day) := by
  refine gated_of_requires (closes_bind (.read _) fun count => ?_)
  refine closes_bind (.writes _ _ ?_) fun _ => ?_
  · intro job member w action
    obtain ⟨range, -, rfl⟩ := List.mem_map.mp member
    simp only [Job.actions, TotalPerformance.job, List.mem_cons, List.not_mem_nil, or_false]
      at action
    rcases action with rfl | rfl
    · exact ⟨rfl, rfl⟩
    · trivial
  · exact closes_bind (.change .rankPerformance trivial) fun _ => closes_mark _ _

theorem exportCategory_gated (settings : Settings) (day : Day) (category : Category) :
    Gated day category (exportCategory settings day category) := by
  cases category with
  | failedAttestations => exact failedAttestations_gated settings day
  | syncDuties => exact syncDuties_gated settings day
  | withdrawalsDeposits => exact transfers_gated settings day
  | blockStats => exact blockStats_gated settings day
  | balance => exact balances_gated settings day
  | consensusRewards => exact consensusRewards_gated settings day
  | executionRewards => exact executionRewards_gated settings day
  | totalPerformance => exact totalPerformance_gated settings day

end Stage
end ValidatorDays
