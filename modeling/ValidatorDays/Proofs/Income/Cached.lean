import ValidatorDays.Proofs.Income.Course
import ValidatorDays.Proofs.Json.Members

namespace ValidatorDays

namespace IncomePoint

/-- The numbers of the point are of the size that a row and a cached value have for them. -/
structure Fits (p : IncomePoint) : Prop where
  day : p.day.number ∈ Bounds.int32
  rewards : p.rewards ∈ Bounds.int64
  endBalance : ∀ n ∈ p.endBalance, n ∈ Bounds.int64

theorem Fits.of_estimate {p : IncomePoint} {base : Day} (estimates : p.Estimates base) :
    p.Fits where
  day := estimates.day
  rewards := estimates.rewards
  endBalance := by simp [estimates.endBalance]

def balanceJson (p : IncomePoint) : Json :=
  match p.endBalance with
  | some n => .int n
  | none => .null

def fields (p : IncomePoint) : List (Json.Member × Json) :=
  [(.required "day" Json.int32, .int p.day.number),
    (.required "cl_rewards_gwei" Json.int64, .int p.rewards),
    (.voluntary "end_balance" (Json.optional Json.int64), p.balanceJson)]

theorem toJson_eq (p : IncomePoint) : p.toJson = .object (Json.named p.fields) := rfl

theorem distinct_fields (p : IncomePoint) : (Json.names p.fields).Nodup := by
  change ["day", "cl_rewards_gwei", "end_balance"].Nodup
  decide

variable {p : IncomePoint}

theorem Fits.decode_balance (fits : p.Fits) :
    Json.optional Json.int64 p.balanceJson = .ok p.endBalance := by
  unfold balanceJson
  cases balance : p.endBalance with
  | none => rfl
  | some n =>
    have inside : Json.int64 (.int n) = .ok n := Json.integer_int (fits.endBalance n balance) _
    simp only [Json.optional, inside]
    rfl

theorem Fits.decode_toJson (fits : p.Fits) : decode p.toJson = .ok p := by
  have day : Json.int32 (.int p.day.number) = .ok p.day.number := Json.integer_int fits.day _
  have rewards : Json.int64 (.int p.rewards) = .ok p.rewards := Json.integer_int fits.rewards _
  have pass : ∀ f ∈ p.fields, f.1.check f.2 = .ok () := by
    simp only [fields, List.forall_mem_cons, Json.Member.required, Json.Member.voluntary, day,
      rewards, fits.decode_balance]
    exact ⟨rfl, rfl, rfl, nofun⟩
  have values : Json.membersOf "a point of an income history" members p.toJson =
      .ok [.int p.day.number, .int p.rewards, p.balanceJson] := by
    rw [toJson_eq]
    exact Json.membersOf_named _ p.distinct_fields pass
  simp only [decode, values, Bind.bind, Except.bind, day, rewards, fits.decode_balance]
  rfl

end IncomePoint

theorem IncomeHistory.decode_toJson {points : IncomeHistory} (fit : ∀ p ∈ points, p.Fits) :
    decode points.toJson = .ok points :=
  Json.listOf_map fun p member => (fit p member).decode_toJson

namespace IncomeRequest

open Program

variable {r : IncomeRequest} {trace own : List Event} {points : IncomeHistory}

/-- The stored rows that the run was answered with are of the size that rows have. -/
def RowsFit (trace : List Event) : Prop :=
  ∀ indices lower upper rows, ⟨.query (.history indices lower upper), .ok rows⟩ ∈ trace →
    ∀ row ∈ rows, row.Fits

theorem storedHistory_silent (run : Runs r.storedHistory own (.ok points)) (key : String)
    (value : Json) : ⟨.cacheSubmit key value, ()⟩ ∉ own := by
  intro submitted
  obtain ⟨stored, rest, rfl, ⟨-, rfl, -⟩ | ⟨-, onward⟩⟩ := storedHistory_ok run
  · cases List.mem_singleton.mp submitted
  obtain ⟨based, estimating, base, point, rfl, chosen, estimated, -⟩ := onward
  rcases List.mem_cons.mp submitted with same | later
  · cases same
  rcases List.mem_append.mp later with before | during
  · cases lastDay_asks chosen _ before
  · cases estimate_asks estimated _ during

theorem storedHistory_fits (run : Runs r.storedHistory own (.ok points)) (fit : RowsFit own) :
    ∀ p ∈ points, p.Fits := by
  obtain ⟨stored, rest, rfl, onward⟩ := storedHistory_ok run
  have storedFit := fit _ _ _ stored (List.mem_cons_self ..)
  obtain ⟨-, -, rfl⟩ | ⟨-, _, _, base, point, rfl, -, estimated, rfl⟩ := onward
  · exact storedFit
  · obtain ⟨_, _, _, _, -, -, estimates⟩ := estimate_ok estimated
    have estimateFits := List.forall_mem_singleton.mpr (IncomePoint.Fits.of_estimate estimates)
    exact List.forall_mem_append.mpr ⟨storedFit, estimateFits⟩

theorem submitted_eq (run : Runs r.history trace (.ok points)) {key : String} {value : Json}
    (submitted : ⟨.cacheSubmit key value, ()⟩ ∈ trace) :
    r.indices ≠ [] ∧ key = r.key ∧ value = points.toJson ∧
      ∃ own, own ⊆ trace ∧ Runs r.storedHistory own (.ok points) := by
  have asked : r.indices ≠ [] := by
    intro nobody
    rw [history_nobody nobody] at run
    cases run
    exact List.not_mem_nil submitted
  obtain ⟨answer, rest, rfl, ⟨-, rfl⟩ | ⟨-, own, rfl, course⟩⟩ := history_ok asked run
  · cases List.mem_singleton.mp submitted
  · rcases List.mem_cons.mp submitted with same | later
    · cases same
    -- Only the last event submits: what comes before it reads and estimates.
    rcases List.mem_append.mp later with before | last
    · exact (storedHistory_silent course key value before).elim
    have same : Request.cacheSubmit key value = .cacheSubmit r.key points.toJson :=
      congrArg Sigma.fst (List.mem_singleton.mp last)
    obtain ⟨rfl, rfl⟩ := Request.cacheSubmit.inj same
    exact ⟨asked, rfl, rfl, own, fun e member => .tail _ (List.mem_append_left _ member), course⟩

/-- A cache that has nothing to give leaves the work as if nothing had ever been submitted. A cache
that gives what a run has submitted gives the history that the run came to, at once. -/
theorem cache_only_hastens (r : IncomeRequest) :
    (∀ answer, found answer = none → ∀ trace result,
      Runs r.history (⟨.cacheRead r.key cacheAge, answer⟩ :: trace) result ↔
        Runs r.history (⟨.cacheRead r.key cacheAge, .ok none⟩ :: trace) result) ∧
    ∀ trace points, Runs r.history trace (.ok points) → RowsFit trace →
      ∀ key value, ⟨.cacheSubmit key value, ()⟩ ∈ trace → key = r.key ∧
        ∀ later result,
          Runs r.history (⟨.cacheRead key cacheAge, .ok (some value)⟩ :: later) result ↔
            later = [] ∧ result = .ok points := by
  constructor
  · intro answer missed trace result
    by_cases nobody : r.indices = []
    · rw [history_nobody nobody]
      exact ⟨nofun, nofun⟩
    · rw [runs_missed nobody missed, runs_missed nobody rfl]
  · intro trace points run fit key value submitted
    obtain ⟨asked, rfl, rfl, own, within, course⟩ := submitted_eq run submitted
    have fits := storedHistory_fits course fun _ _ _ rows member => fit _ _ _ rows (within member)
    refine ⟨rfl, fun later result => runs_found asked ?_⟩
    simp only [found, IncomeHistory.decode_toJson fits]
    rfl

theorem cache_only_hastens_steady : ∃ trace points,
    (∀ report, Runs openEnded.history
      (⟨.cacheRead openEnded.key cacheAge, .error report⟩ :: trace) (.ok points)) ∧
    ⟨.cacheSubmit openEnded.key (IncomeHistory.toJson points), ()⟩ ∈ trace ∧
    Runs openEnded.history
      [⟨.cacheRead openEnded.key cacheAge, .ok (some (IncomeHistory.toJson points))⟩] (.ok points) ∧
    points = firstDay ++ [⟨⟨1⟩, 50, none⟩] := by
  obtain ⟨trace, run, steadily⟩ := openEnded_runs
  obtain ⟨missing, hitting⟩ := cache_only_hastens openEnded
  have fit : RowsFit (⟨.cacheRead openEnded.key cacheAge, .ok none⟩ :: trace) := by
    intro indices lower upper rows member
    rcases List.mem_cons.mp member with same | later
    · cases same
    cases steadily _ later
    refine List.forall_mem_singleton.mpr ⟨by decide, by decide, ?_⟩
    rintro n ⟨⟩
    decide
  obtain ⟨own, rfl, -⟩ := afresh_ok ((runs_missed (List.cons_ne_nil _ _) rfl).mp run)
  refine ⟨_, _, fun report => (missing (.error report) rfl _ _).mpr run, by simp, ?hits, rfl⟩
  case hits =>
    have later := hitting _ _ run fit openEnded.key _
      (.tail _ (List.mem_append_right own (List.mem_singleton_self _)))
    exact (later.2 [] _).mpr ⟨rfl, rfl⟩

end IncomeRequest
end ValidatorDays
