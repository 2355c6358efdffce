import Mathlib
import ValidatorDays.Proofs.Chart.Readings
import ValidatorDays.Proofs.Stage.Validators
import ValidatorDays.Proofs.Status.Ways
import ValidatorDays.Proofs.Work.Order
import ValidatorDays.Proofs.Work.Script

namespace ValidatorDays

open Program

def Request.Waited (r : Request) : Prop := ∃ w, r = .write w

theorem Request.Prepares.not_waited {r : Request} (prepares : r.Prepares) : ¬ r.Waited := by
  rintro ⟨w, rfl⟩
  exact prepares

theorem Request.OfWrites.not_waited {r : Request} (asks : r.OfWrites) : ¬ r.Waited := by
  rintro ⟨w, rfl⟩
  exact asks

theorem served_by_one {day : Day} {i : ValidatorIndex} {work : RangeWork} {statements : List Write}
    (once : statements.countP (Write.serves day i work) ≤ 1) {v w : Write} (first : v ∈ statements)
    (second : w ∈ statements) (own : v.serves day i work) (ownToo : w.serves day i work) :
    v = w := by
  rw [List.countP_eq_length_filter] at once
  have member : v ∈ statements.filter (Write.serves day i work) :=
    List.mem_filter.mpr ⟨first, own⟩
  have memberToo : w ∈ statements.filter (Write.serves day i work) :=
    List.mem_filter.mpr ⟨second, ownToo⟩
  rcases Nat.le_one_iff_eq_zero_or_eq_one.mp once with zero | one
  · rw [List.eq_nil_of_length_eq_zero zero] at member
    cases member
  · obtain ⟨only, same⟩ := List.length_eq_one_iff.mp one
    rw [same, List.mem_singleton] at member memberToo
    exact member.trans memberToo.symm

namespace TotalPerformance

def gates (day : Day) : Program Unit :=
  (ensureDayFinalized day).bind fun _ =>
    (ofOutcome (.ofChecked (requirements day))).bind fun rs => ensureExported day rs

def jobs (settings : Settings) (day : Day) (count : Int) : List (Job Write) :=
  (IndexRange.split count settings.performanceBatch).map (job day)

/-- The last statements of a run: the ranking, and the mark if the ranking went well. -/
inductive Closing (day : Day) : List Event → Except DatabaseError Unit → Prop where
  | unranked (e : DatabaseError) : Closing day [⟨.write .rankPerformance, .error e⟩] (.error e)
  | ranked (ended : Except DatabaseError Unit) : Closing day
      [⟨.write .rankPerformance, .ok ()⟩, ⟨.write (.markExported day .totalPerformance), ended⟩]
      ended

section Run

variable {settings : Settings} {day : Day} {trace : List Event} {result : Outcome Unit}

theorem stage_eq (settings : Settings) (day : Day) : stage settings day =
    (gates day).bind fun _ => (readStage .validatorCount).bind fun count =>
      ((settings.group "total_performance").run .writes (jobs settings day count)).bind fun _ =>
        (writeStage .rankPerformance).bind fun _ => markExported day .totalPerformance := by
  simp only [gates, bind_assoc]
  rfl

theorem gates_prepare (day : Day) : (gates day).Only Request.Prepares :=
  ((ensureDayFinalized_gate day).bind fun _ => .bind (.outcome _) fun rs =>
    ensureExported_gate day rs).mono fun _ => Request.OfGate.prepares

theorem gates_ok {early : List Event} (run : Runs (gates day) early (.ok ())) :
    WentWell early := by
  obtain ⟨first, _, rest, rfl, gated, passed⟩ := run.bind_ok
  obtain ⟨rs, -, needed⟩ := passed.checked_ok
  obtain ⟨finalized, -, rfl⟩ := ChartSeries.ensureEpochsFinalized_ok gated
  exact (WentWell.query _ _).append ((ensureExported_keeps (fun _ => True) day rs).ends needed).1

theorem closing_runs {late : List Event} (run : Runs ((writeStage .rankPerformance).bind fun _ =>
    markExported day .totalPerformance) late result) :
    ∃ ended, Closing day late ended ∧ result = ended.mapError .notPersisted := by
  have script : Scripted .notPersisted ([.write .rankPerformance] ++
      [.write (.markExported day .totalPerformance)]) ((writeStage .rankPerformance).bind fun _ =>
        markExported day .totalPerformance) :=
    (Scripted.writeStage rfl).bind fun _ => Scripted.writeStage rfl
  obtain ⟨ended, played, told⟩ := script late result run
  have same : result = ended.mapError .notPersisted := by
    cases result <;> exact told
  refine ⟨ended, ?_, same⟩
  rcases played.before_last with rfl | ⟨before, s, after, e, parts, rfl, rfl⟩
  · exact .ranked ended
  · obtain ⟨rfl, rest⟩ | ⟨-, nothing⟩ := List.singleton_eq_append_iff.mp parts
    · cases rest
      exact .unranked e
    · cases nothing

/-- A run that comes to its jobs. What it was told before went well, and it ranks if they do. -/
structure ReachesJobs (settings : Settings) (day : Day) (early : List Event) (known : Int)
    (worked late : List Event) (outcome : Outcome (List Unit)) (result : Outcome Unit) : Prop where
  prepares : ∀ e ∈ early, e.1.Prepares
  well : WentWell early
  works : Runs ((settings.group "total_performance").run .writes (jobs settings day known)) worked
    outcome
  ends : (late = [] ∧ ∃ cause, outcome = .error cause ∧ result = .error cause) ∨
    ∃ all ended, outcome = .ok all ∧ Closing day late ended ∧ result = ended.mapError .notPersisted

theorem runs_stage (run : Runs (stage settings day) trace result) :
    ((∀ e ∈ trace, e.1.Prepares ∨ ∃ unknown, e = ⟨.query .validatorCount, .error unknown⟩) ∧
      ∃ cause, result = .error cause) ∨
    ∃ early known worked late outcome,
      trace = early ++ ⟨.query .validatorCount, .ok known⟩ :: (worked ++ late) ∧
      ReachesJobs settings day early known worked late outcome result := by
  rw [stage_eq] at run
  rcases runs_bind.mp run with ⟨early, _, rest, rfl, gated, counting⟩ | ⟨cause, gated, rfl⟩
  · have prepares := (gates_prepare day).asked gated
    have well := gates_ok gated
    cases counting with
    | ask answer onward =>
      cases answer with
      | error e =>
        cases onward
        refine .inl ⟨fun e member => ?_, _, rfl⟩
        rcases List.mem_append.mp member with before | now
        · exact .inl (prepares e before)
        · exact .inr ⟨_, List.mem_singleton.mp now⟩
      | ok known =>
        refine .inr ⟨early, known, ?_⟩
        change Runs (((settings.group "total_performance").run .writes
          (jobs settings day known)).bind _) _ result at onward
        obtain ⟨worked, all, late, rfl, works, closes⟩ | ⟨cause, works, rfl⟩ := runs_bind.mp onward
        · obtain ⟨ended, closing, told⟩ := closing_runs closes
          exact ⟨worked, late, _, rfl, prepares, well, works, .inr ⟨all, ended, rfl, closing, told⟩⟩
        · exact ⟨_, [], _, by rw [List.append_nil], prepares, well, works,
            .inl ⟨rfl, cause, rfl, rfl⟩⟩
  · exact .inl ⟨fun e member => .inl ((gates_prepare day).asked gated e member), cause, rfl⟩

end Run

/-- In which order a run issues its statements. What fails before the ranking keeps it from being
issued, and the mark with it. -/
structure RanksLast (day : Day) (trace : List Event) (result : Outcome Unit) : Prop where
  statements : ∀ w ∈ trace.flatMap Event.startsWrite,
    ∃ range, w = .cumulativeTotals day range ∨ w = .performanceSnapshot day range
  behind : ∀ before range answer after,
    trace = before ++ ⟨.startWrite (.performanceSnapshot day range), answer⟩ :: after →
      .cumulativeTotals day range ∈ before.flatMap Event.landsWrite
  ranks : ∀ before answer after, trace = before ++ ⟨.write .rankPerformance, answer⟩ :: after →
    WentWell before ∧ (∀ e ∈ before, ¬ e.1.Waited) ∧ (after = [] ∨ answer = .ok () ∧
      ∃ marked, after = [⟨.write (.markExported day .totalPerformance), marked⟩])
  marks : ∀ before answer after,
    trace = before ++ ⟨.write (.markExported day .totalPerformance), answer⟩ :: after →
      after = [] ∧ ∃ earlier, before = earlier ++ [⟨.write .rankPerformance, .ok ()⟩]
  fails : ∀ e ∈ trace, ¬ e.1.Waited → ¬ e.succeeded → ∀ other ∈ trace, ¬ other.1.Waited
  succeeds : result = .ok () → ∃ before, trace = before ++ [⟨.write .rankPerformance, .ok ()⟩,
    ⟨.write (.markExported day .totalPerformance), .ok ()⟩]

/-- No validator is served twice, and all before `count` are served once by the time of the ranking.
The totals of a validator are there before its performance is worked out. -/
structure ServesAll (day : Day) (count : Int) (trace : List Event) (result : Outcome Unit) :
    Prop where
  once : ∀ work, work ≠ .income → ∀ i, (trace.flatMap Event.startsWrite).countP
    (Write.serves day i work) ≤ if 0 ≤ i ∧ i < count then 1 else 0
  behind : ∀ before range answer after,
    trace = before ++ ⟨.startWrite (.performanceSnapshot day range), answer⟩ :: after →
      ∀ i ∈ range, ∀ w ∈ trace.flatMap Event.startsWrite, w.serves day i .totals →
        w ∈ before.flatMap Event.landsWrite
  ranked : ∀ before answer after, trace = before ++ ⟨.write .rankPerformance, answer⟩ :: after →
    ∀ work, work ≠ .income → ∀ i,
      Served work day i (if 0 ≤ i ∧ i < count then 1 else 0) before
  succeeds : result = .ok () → ∀ work, work ≠ .income → ∀ i,
    Served work day i (if 0 ≤ i ∧ i < count then 1 else 0) trace

section Order

variable {settings : Settings} {day : Day} {known : Int} {early worked late : List Event}
  {outcome : Outcome (List Unit)} {result : Outcome Unit} {ended : Except DatabaseError Unit}

theorem Closing.waited (closing : Closing day late ended) : ∀ e ∈ late, e.1.Waited := by
  cases closing with
  | unranked e => simp [Request.Waited]
  | ranked => simp [Request.Waited]

theorem Closing.ranks (closing : Closing day late ended) {before after : List Event}
    {answer : Except DatabaseError Unit}
    (split : late = before ++ ⟨.write .rankPerformance, answer⟩ :: after) :
    before = [] ∧ (after = [] ∨ answer = .ok () ∧
      ∃ marked, after = [⟨.write (.markExported day .totalPerformance), marked⟩]) := by
  cases closing with
  | unranked e =>
    obtain ⟨rfl, same⟩ | ⟨-, nothing⟩ := List.singleton_eq_append_iff.mp split
    · cases same
      exact ⟨rfl, .inl rfl⟩
    · cases nothing
  | ranked =>
    rcases List.cons_eq_append_iff.mp split with ⟨rfl, same⟩ | ⟨more, rfl, rest⟩
    · cases same
      exact ⟨rfl, .inr ⟨rfl, _, rfl⟩⟩
    · obtain ⟨-, same⟩ | ⟨-, nothing⟩ := List.singleton_eq_append_iff.mp rest
      · cases same
      · cases nothing

theorem Closing.marks (closing : Closing day late ended) {before after : List Event}
    {answer : Except DatabaseError Unit}
    (split : late = before ++ ⟨.write (.markExported day .totalPerformance), answer⟩ :: after) :
    before = [⟨.write .rankPerformance, .ok ()⟩] ∧ after = [] := by
  cases closing with
  | unranked e =>
    obtain ⟨rfl, same⟩ | ⟨-, nothing⟩ := List.singleton_eq_append_iff.mp split
    · cases same
    · cases nothing
  | ranked =>
    rcases List.cons_eq_append_iff.mp split with ⟨rfl, same⟩ | ⟨more, rfl, rest⟩
    · cases same
    · obtain ⟨rfl, same⟩ | ⟨-, nothing⟩ := List.singleton_eq_append_iff.mp rest
      · cases same
        exact ⟨rfl, rfl⟩
      · cases nothing

theorem jobs_actions {whole : Job Write} (given : whole ∈ jobs settings day known) :
    ∃ range, whole.actions = [.cumulativeTotals day range, .performanceSnapshot day range] := by
  obtain ⟨range, -, rfl⟩ := List.mem_map.mp given
  exact ⟨range, rfl⟩

namespace ReachesJobs

theorem late_waited (reached : ReachesJobs settings day early known worked late outcome result) :
    ∀ e ∈ late, e.1.Waited := by
  rcases reached.ends with ⟨rfl, -⟩ | ⟨_, _, -, closing, -⟩
  · exact List.forall_mem_nil _
  · exact closing.waited

theorem early_quiet (reached : ReachesJobs settings day early known worked late outcome result) :
    ∀ e ∈ early ++ [(⟨.query .validatorCount, .ok known⟩ : Event)],
      ¬ e.1.OfWrites ∧ ¬ e.1.Waited := by
  intro e member
  rcases List.mem_append.mp member with before | now
  · exact ⟨(reached.prepares e before).not_ofWrites, (reached.prepares e before).not_waited⟩
  · cases List.mem_singleton.mp now
    exact ⟨id, nofun⟩

theorem waited_after (reached : ReachesJobs settings day early known worked late outcome result)
    {before after : List Event} {e : Event} (waited : e.1.Waited)
    (split : early ++ ⟨.query .validatorCount, .ok known⟩ :: (worked ++ late) =
      before ++ e :: after) : ∃ ahead,
      before = early ++ ⟨.query .validatorCount, .ok known⟩ :: (worked ++ ahead) ∧
        late = ahead ++ e :: after := by
  rw [List.append_cons, ← List.append_assoc] at split
  have notEarly : e ∉ early ++ [⟨.query .validatorCount, .ok known⟩] ++ worked := by
    intro member
    rcases List.mem_append.mp member with before | amid
    · exact (reached.early_quiet e before).2 waited
    · exact ((Carrier.asks_writes _ _).asked reached.works e amid).not_waited waited
  obtain ⟨ahead, rfl, rest⟩ := split_after split notEarly
  exact ⟨ahead, by simp, rest⟩

theorem issued (reached : ReachesJobs settings day early known worked late outcome result) :
    ((early ++ ⟨.query .validatorCount, .ok known⟩ :: (worked ++ late)).flatMap
      Event.startsWrite).Subperm ((jobs settings day known).flatMap Job.actions) := by
  rw [(writes_of_stage known worked reached.prepares reached.late_waited).1]
  exact issued_of_group reached.works

theorem totals_landed (reached : ReachesJobs settings day early known worked late outcome result)
    {before after : List Event} {d : Day} {range : IndexRange} {answer : Unit}
    (split : early ++ ⟨.query .validatorCount, .ok known⟩ :: (worked ++ late) =
      before ++ ⟨.startWrite (.performanceSnapshot d range), answer⟩ :: after) :
    .cumulativeTotals day range ∈ before.flatMap Event.landsWrite ∧
      .cumulativeTotals day range ∈ (jobs settings day known).flatMap Job.actions := by
  rw [List.append_cons] at split
  have notEarly : ⟨.startWrite (.performanceSnapshot d range), answer⟩ ∉
      early ++ [(⟨.query .validatorCount, .ok known⟩ : Event)] :=
    fun member => (reached.early_quiet _ member).1 trivial
  have notLate : (⟨.startWrite (.performanceSnapshot d range), answer⟩ : Event) ∉ late :=
    fun member => nomatch reached.late_waited _ member
  obtain ⟨ahead, rest, rfl, rfl⟩ := split_between split notEarly notLate
  obtain ⟨whole, given, done, more, actions, landed⟩ := Group.run_in_turn _ reached.works
  obtain ⟨own, same⟩ := jobs_actions given
  -- The job has the totals of its range first, and the performance after them.
  have turn : done = [.cumulativeTotals day own] ∧ own = range := by
    rw [same] at actions
    rcases List.cons_eq_append_iff.mp actions with ⟨rfl, wrong⟩ | ⟨others, rfl, onward⟩
    · cases wrong
    · obtain ⟨rfl, last⟩ | ⟨-, nothing⟩ := List.singleton_eq_append_iff.mp onward
      · cases last
        exact ⟨rfl, rfl⟩
      · cases nothing
  obtain ⟨rfl, rfl⟩ := turn
  constructor
  · rw [List.flatMap_append]
    exact List.mem_append_right _ (landed _ List.mem_cons_self)
  · exact List.mem_flatMap.mpr ⟨whole, given, by simp [same]⟩

theorem landed (reached : ReachesJobs settings day early known worked late outcome result)
    {all : List Unit} (done : outcome = .ok all) :
    WentWell (early ++ ⟨.query .validatorCount, .ok known⟩ :: worked) ∧
      ∀ e ∈ early ++ ⟨.query .validatorCount, .ok known⟩ :: worked, ¬ e.1.Waited := by
  have works := reached.works
  subst done
  have tidy : ((settings.group "total_performance").run .writes (jobs settings day known)).Tidy
      fun _ => True := .writes _ _ fun _ _ _ _ => trivial
  rw [List.append_cons]
  constructor
  · exact (reached.well.append (WentWell.query .validatorCount known)).append (tidy.ends works)
  · intro e member
    rcases List.mem_append.mp member with before | amid
    · exact (reached.early_quiet e before).2
    · exact ((Carrier.asks_writes _ _).asked works e amid).not_waited

/-- Something is waited for only once the jobs have come to a good end. -/
theorem closes (reached : ReachesJobs settings day early known worked late outcome result)
    (nonempty : late ≠ []) : (∃ all, outcome = .ok all) ∧
      ∃ ended, Closing day late ended ∧ result = ended.mapError .notPersisted := by
  rcases reached.ends with ⟨empty, -⟩ | ⟨all, ended, done, closing, told⟩
  · exact absurd empty nonempty
  · exact ⟨⟨all, done⟩, ended, closing, told⟩

theorem ranksLast (reached : ReachesJobs settings day early known worked late outcome result) :
    RanksLast day (early ++ ⟨.query .validatorCount, .ok known⟩ :: (worked ++ late)) result := by
  constructor
  case statements =>
    intro w member
    obtain ⟨whole, given, action⟩ := List.mem_flatMap.mp (reached.issued.subset member)
    obtain ⟨range, same⟩ := jobs_actions given
    rw [same] at action
    exact ⟨range, List.mem_pair.mp action⟩
  case behind => exact fun before range answer after split => (reached.totals_landed split).1
  case ranks =>
    intro before answer after split
    obtain ⟨ahead, rfl, last⟩ := reached.waited_after ⟨_, rfl⟩ split
    obtain ⟨⟨all, done⟩, ended, closing, -⟩ := reached.closes (by simp [last])
    obtain ⟨rfl, rest⟩ := closing.ranks last
    obtain ⟨well, quiet⟩ := reached.landed done
    rw [List.append_nil]
    exact ⟨well, quiet, rest⟩
  case marks =>
    intro before answer after split
    obtain ⟨ahead, rfl, last⟩ := reached.waited_after ⟨_, rfl⟩ split
    obtain ⟨-, ended, closing, -⟩ := reached.closes (by simp [last])
    obtain ⟨rfl, rfl⟩ := closing.marks last
    exact ⟨rfl, early ++ ⟨.query .validatorCount, .ok known⟩ :: worked, by simp⟩
  case fails =>
    intro e member unwaited failed other inside waited
    obtain ⟨before, after, split⟩ := List.append_of_mem inside
    obtain ⟨ahead, -, last⟩ := reached.waited_after waited split
    obtain ⟨⟨all, done⟩, -⟩ := reached.closes (by simp [last])
    rw [← List.cons_append, ← List.append_assoc] at member
    rcases List.mem_append.mp member with before | behind
    · exact failed ((reached.landed done).1.succeeded e before)
    · exact unwaited (reached.late_waited e behind)
  case succeeds =>
    rintro rfl
    rcases reached.ends with ⟨-, cause, -, wrong⟩ | ⟨all, ended, -, closing, told⟩
    · cases wrong
    · cases closing with
      | unranked e => cases told
      | ranked =>
        cases ended with
        | error e => cases told
        | ok _ => exact ⟨early ++ ⟨.query .validatorCount, .ok known⟩ :: worked, by simp⟩

end ReachesJobs

theorem serves_each (settings : Settings) (day : Day) (nonneg : 0 ≤ known)
    (inRange : known ≤ Bounds.int32.greatest)
    (narrow : settings.performanceBatch ≤ Bounds.int32.greatest) {work : RangeWork}
    (own : work ≠ .income) (i : ValidatorIndex) :
    ((jobs settings day known).flatMap Job.actions).countP (Write.serves day i work) =
      if 0 ≤ i ∧ i < known then 1 else 0 := by
  have inside : known ∈ Bounds.int32 := ⟨by simp only [Bounds.int32]; omega, inRange⟩
  have whole : IndexRange.reach known settings.performanceBatch = known := by
    rw [IndexRange.reach_eq_iff.mpr (.inr (.inl narrow))]
    exact Int.max_eq_left nonneg
  rw [jobs, actions_serve day _ i own, IndexRange.count_split inside, whole]

theorem ReachesJobs.servesAll
    (reached : ReachesJobs settings day early known worked late outcome result)
    (nonneg : 0 ≤ known) (inRange : known ≤ Bounds.int32.greatest)
    (narrow : settings.performanceBatch ≤ Bounds.int32.greatest) :
    ServesAll day known (early ++ ⟨.query .validatorCount, .ok known⟩ :: (worked ++ late))
      result := by
  have planned {work : RangeWork} (own : work ≠ .income) (i : ValidatorIndex) :=
    serves_each settings day nonneg inRange narrow own i
  -- The jobs have come to a good end, whether or not something has been waited for since.
  have served {all : List Unit} (done : outcome = .ok all) {ahead : List Event}
      (waited : ∀ e ∈ ahead, e.1.Waited) {work : RangeWork} (own : work ≠ .income)
      (i : ValidatorIndex) : Served work day i (if 0 ≤ i ∧ i < known then 1 else 0)
        (early ++ ⟨.query .validatorCount, .ok known⟩ :: (worked ++ ahead)) := by
    have works := reached.works
    subst done
    rw [← planned own i]
    have counted : ⟨.query .validatorCount, .ok known⟩ ∈
        early ++ ⟨.query .validatorCount, .ok known⟩ :: (worked ++ ahead) := by simp
    exact (served_of_stage reached.prepares works waited counted).2 work day i
  constructor
  case once =>
    intro work own i
    rw [← planned own i]
    exact reached.issued.countP_le _
  case behind =>
    intro before range answer after split i member w issued serves
    obtain ⟨landed, given⟩ := reached.totals_landed split
    have once : ((jobs settings day known).flatMap Job.actions).countP
        (Write.serves day i .totals) ≤ 1 := by
      have totals : RangeWork.totals ≠ .income := by simp
      rw [planned totals i]
      split <;> omega
    have own : (Write.cumulativeTotals day range).serves day i .totals :=
      decide_eq_true ⟨rfl, member⟩
    exact served_by_one once given (reached.issued.subset issued) own serves ▸ landed
  case ranked =>
    intro before answer after split work own i
    obtain ⟨ahead, rfl, last⟩ := reached.waited_after ⟨_, rfl⟩ split
    obtain ⟨⟨all, done⟩, ended, closing, -⟩ := reached.closes (by simp [last])
    obtain ⟨rfl, -⟩ := closing.ranks last
    exact served done (List.forall_mem_nil _) own i
  case succeeds =>
    rintro rfl work own i
    rcases reached.ends with ⟨-, cause, -, wrong⟩ | ⟨all, ended, done, -, -⟩
    · cases wrong
    · exact served done reached.late_waited own i

end Order

section Stage

variable {settings : Settings} {day : Day} {trace : List Event}

theorem RanksLast.nothing {result : Outcome Unit} (broken : ∃ cause, result = .error cause)
    (prepares : ∀ e ∈ trace,
      e.1.Prepares ∨ ∃ unknown, e = ⟨.query .validatorCount, .error unknown⟩) :
    RanksLast day trace result := by
  have quiet : ∀ e ∈ trace, ¬ e.1.OfWrites ∧ ¬ e.1.Waited := by
    intro e member
    rcases prepares e member with prepares | ⟨unknown, rfl⟩
    · exact ⟨prepares.not_ofWrites, prepares.not_waited⟩
    · exact ⟨id, nofun⟩
  constructor
  case statements =>
    intro w member
    rw [(writes_of_others fun e member => (quiet e member).1).1] at member
    cases member
  case behind =>
    rintro before range answer after rfl
    exact absurd trivial (quiet ⟨.startWrite _, answer⟩ (by simp)).1
  case ranks =>
    rintro before answer after rfl
    exact absurd ⟨_, rfl⟩ (quiet ⟨.write .rankPerformance, answer⟩ (by simp)).2
  case marks =>
    rintro before answer after rfl
    exact absurd ⟨_, rfl⟩ (quiet ⟨.write _, answer⟩ (by simp)).2
  case fails => exact fun _ _ _ _ other member => (quiet other member).2
  case succeeds =>
    obtain ⟨cause, rfl⟩ := broken
    exact nofun

/-- However many validators are counted, and whatever the world does, the ranking waits for the
totals and the performance of all of them, and the mark for the ranking. -/
theorem stage_ranks_last {result : Outcome Unit} (run : Runs (stage settings day) trace result) :
    RanksLast day trace result ∧ ∀ count : Int, ⟨.query .validatorCount, .ok count⟩ ∈ trace →
      0 ≤ count → count ≤ Bounds.int32.greatest →
      settings.performanceBatch ≤ Bounds.int32.greatest → ServesAll day count trace result := by
  obtain ⟨prepares, broken⟩ | ⟨early, known, worked, late, outcome, rfl, reached⟩ := runs_stage run
  · refine ⟨.nothing broken prepares, fun count counted _ _ _ => ?_⟩
    rcases prepares _ counted with wrong | ⟨unknown, wrong⟩
    · exact wrong.elim
    · cases wrong
  · refine ⟨reached.ranksLast, fun count counted nonneg inRange narrow => ?_⟩
    obtain rfl := count_of_stage reached.prepares reached.works reached.late_waited counted
    exact reached.servesAll nonneg inRange narrow

/-- Three ranges of at most four validators are ranked together. -/
theorem stage_ranks_last_ten : ∃ trace, Runs (stage (batchesOf 4) ⟨1⟩) trace (.ok ()) ∧
    RanksLast ⟨1⟩ trace (.ok ()) ∧ ServesAll ⟨1⟩ 10 trace (.ok ()) := by
  obtain ⟨trace, run, counted⟩ := ten_validators_totals
  obtain ⟨last, serves⟩ := stage_ranks_last run
  exact ⟨trace, run, last, serves 10 counted (by decide) (by decide) (by decide)⟩

end Stage

end TotalPerformance
end ValidatorDays
