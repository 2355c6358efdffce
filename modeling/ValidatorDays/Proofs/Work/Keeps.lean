import ValidatorDays.Work.Program
/-! Statements about all courses of a work. `Keeps` goes over the tree once: it says what may be
asked after what, and what holds at the ends. It is carried over to the runs of the work, and to
works that are put together from others. -/
namespace ValidatorDays.Program

variable {α β : Type}

/-- Whatever the answers, only what `may` allows is asked, and `good` holds of what the work
comes to, or `bad` of its failure. All three are told what went before. -/
def Keeps (may : List Event → Request → Prop) (good : List Event → α → Prop)
    (bad : List Event → Failure → Prop) : Program α → List Event → Prop
  | .done a, seen => good seen a
  | .fail cause, seen => bad seen cause
  | .ask r next, seen =>
    may seen r ∧ ∀ answer, (next answer).Keeps may good bad (seen ++ [⟨r, answer⟩])

def Ends (good : List Event → α → Prop) (bad : List Event → Failure → Prop) (seen : List Event) :
    Outcome α → Prop
  | .ok a => good seen a
  | .error cause => bad seen cause

section Rules

variable {may : List Event → Request → Prop} {good : List Event → α → Prop}
  {bad : List Event → Failure → Prop}

theorem keeps_bind {goodβ : List Event → β → Prop} (p : Program α) (f : α → Program β)
    (seen : List Event) : (p.bind f).Keeps may goodβ bad seen ↔
      p.Keeps may (fun seen a => (f a).Keeps may goodβ bad seen) bad seen := by
  induction p generalizing seen with
  | done a => exact Iff.rfl
  | fail cause => exact Iff.rfl
  | ask r next ih => simp only [Program.bind, Keeps, ih]

theorem keeps_mapFailure (p : Program α) (f : Failure → Failure) (seen : List Event) :
    (p.mapFailure f).Keeps may good bad seen ↔
      p.Keeps may good (fun seen cause => bad seen (f cause)) seen := by
  induction p generalizing seen with
  | done a => exact Iff.rfl
  | fail cause => exact Iff.rfl
  | ask r next ih => simp only [mapFailure, Keeps, ih]

theorem keeps_ofOutcome (o : Outcome α) (seen : List Event) :
    (ofOutcome o).Keeps may good bad seen ↔ Ends good bad seen o := by
  cases o <;> exact Iff.rfl

theorem Keeps.mono {may' : List Event → Request → Prop} {good' : List Event → α → Prop}
    {bad' : List Event → Failure → Prop} {p : Program α} {seen : List Event}
    (kept : p.Keeps may good bad seen) (allowed : ∀ h r, may h r → may' h r)
    (better : ∀ h a, good h a → good' h a) (worse : ∀ h cause, bad h cause → bad' h cause) :
    p.Keeps may' good' bad' seen := by
  induction p generalizing seen with
  | done a => exact better seen a kept
  | fail cause => exact worse seen cause kept
  | ask r next ih => exact ⟨allowed seen r kept.1, fun answer => ih answer (kept.2 answer)⟩

theorem Keeps.bind {goodβ : List Event → β → Prop} {p : Program α} {f : α → Program β}
    {seen : List Event} (first : p.Keeps may good bad seen)
    (next : ∀ h a, good h a → (f a).Keeps may goodβ bad h) :
    (p.bind f).Keeps may goodβ bad seen :=
  (keeps_bind p f seen).mpr (first.mono (fun _ _ => id) next fun _ _ => id)

/-- What holds of a work on its own holds of its share of a longer history. -/
theorem Keeps.later {p : Program α} (kept : p.Keeps may good bad []) (before : List Event) :
    p.Keeps (fun h r => ∃ own, h = before ++ own ∧ may own r)
      (fun h a => ∃ own, h = before ++ own ∧ good own a)
      (fun h cause => ∃ own, h = before ++ own ∧ bad own cause) before := by
  suffices shift : ∀ seen, p.Keeps may good bad seen →
      p.Keeps (fun h r => ∃ own, h = before ++ own ∧ may own r)
        (fun h a => ∃ own, h = before ++ own ∧ good own a)
        (fun h cause => ∃ own, h = before ++ own ∧ bad own cause) (before ++ seen) by
    simpa only [List.append_nil] using shift [] kept
  clear kept
  induction p with
  | done a => exact fun seen kept => ⟨seen, rfl, kept⟩
  | fail cause => exact fun seen kept => ⟨seen, rfl, kept⟩
  | ask r next ih =>
    refine fun seen kept => ⟨⟨seen, rfl, kept.1⟩, fun answer => ?_⟩
    rw [List.append_assoc]
    exact ih answer _ (kept.2 answer)

theorem Keeps.recall {asks : Request → Prop} {p : Program α} {seen : List Event}
    (kept : p.Keeps (fun _ => asks) good bad seen) (known : ∀ e ∈ seen, asks e.1) :
    p.Keeps (fun h r => (∀ e ∈ h, asks e.1) ∧ asks r) (fun h a => (∀ e ∈ h, asks e.1) ∧ good h a)
      (fun h cause => (∀ e ∈ h, asks e.1) ∧ bad h cause) seen := by
  induction p generalizing seen with
  | done a => exact ⟨known, kept⟩
  | fail cause => exact ⟨known, kept⟩
  | ask r next ih =>
    refine ⟨⟨known, kept.1⟩, fun answer => ih answer (kept.2 answer) ?_⟩
    intro e he
    rcases List.mem_append.mp he with he | he
    · exact known e he
    · cases List.mem_singleton.mp he
      exact kept.1

theorem Keeps.grown {p : Program α} {seen : List Event} (kept : p.Keeps may good bad seen) :
    p.Keeps may (fun h a => seen <+: h ∧ good h a) (fun h cause => seen <+: h ∧ bad h cause)
      seen := by
  suffices grow : ∀ h, seen <+: h → p.Keeps may good bad h →
      p.Keeps may (fun h a => seen <+: h ∧ good h a)
        (fun h cause => seen <+: h ∧ bad h cause) h from
    grow seen List.prefix_rfl kept
  clear kept
  induction p with
  | done a => exact fun _ begins kept => ⟨begins, kept⟩
  | fail cause => exact fun _ begins kept => ⟨begins, kept⟩
  | ask r next ih =>
    exact fun h begins kept => ⟨kept.1, fun answer =>
      ih answer _ (begins.trans (List.prefix_append h _)) (kept.2 answer)⟩

theorem Keeps.ends {p : Program α} {seen trace : List Event} {result : Outcome α}
    (kept : p.Keeps may good bad seen) (run : Runs p trace result) :
    Ends good bad (seen ++ trace) result := by
  induction run generalizing seen with
  | done a => simpa [Keeps, Ends] using kept
  | fail cause => simpa [Keeps, Ends] using kept
  | ask answer rest ih => simpa using ih (kept.2 answer)

theorem Keeps.asked {p : Program α} {seen before after : List Event} {e : Event}
    {result : Outcome α} (kept : p.Keeps may good bad seen)
    (run : Runs p (before ++ e :: after) result) : may (seen ++ before) e.1 := by
  generalize same : before ++ e :: after = trace at run
  induction run generalizing seen before with
  | done a => simp at same
  | fail cause => simp at same
  | ask answer rest ih =>
    cases before with
    | nil =>
      cases same
      simpa using kept.1
    | cons first before =>
      cases same
      simpa using ih (kept.2 answer) rfl

end Rules

def Only (asks : Request → Prop) (p : Program α) : Prop :=
  p.Keeps (fun _ => asks) (fun _ _ => True) (fun _ _ => True) []

namespace Only

variable {asks : Request → Prop}

theorem of_keeps {p : Program α} {good : List Event → α → Prop} {bad : List Event → Failure → Prop}
    (kept : p.Keeps (fun _ => asks) good bad []) : p.Only asks :=
  kept.mono (fun _ _ => id) (fun _ _ _ => trivial) fun _ _ _ => trivial

theorem anywhere {p : Program α} {seen : List Event}
    (kept : p.Keeps (fun _ => asks) (fun _ _ => True) (fun _ _ => True) seen)
    (before : List Event) :
    p.Keeps (fun _ => asks) (fun _ _ => True) (fun _ _ => True) before := by
  induction p generalizing seen before with
  | done a => trivial
  | fail cause => trivial
  | ask r next ih => exact ⟨kept.1, fun answer => ih answer (kept.2 answer) _⟩

theorem done (a : α) : (Program.done a).Only asks := trivial

theorem fail (cause : Failure) : (Program.fail cause : Program α).Only asks := trivial

theorem ask_iff {r : Request} {next : r.Answer → Program α} :
    (Program.ask r next).Only asks ↔ asks r ∧ ∀ answer, (next answer).Only asks := by
  constructor
  · exact fun only => ⟨only.1, fun answer => anywhere (only.2 answer) []⟩
  · exact fun ⟨first, others⟩ => ⟨first, fun answer => anywhere (others answer) _⟩

theorem ask {r : Request} {next : r.Answer → Program α} (first : asks r)
    (others : ∀ answer, (next answer).Only asks) : (Program.ask r next).Only asks :=
  ask_iff.mpr ⟨first, others⟩

theorem outcome (o : Outcome α) : (ofOutcome o).Only asks := by
  cases o <;> exact trivial

theorem ofDatabase (answer : Except DatabaseError α) : (Program.ofDatabase answer).Only asks := by
  cases answer <;> exact trivial

theorem ofReport (answer : Except Report α) : (Program.ofReport answer).Only asks := by
  cases answer <;> exact trivial

theorem bind {p : Program α} {f : α → Program β} (first : p.Only asks)
    (next : ∀ a, (f a).Only asks) : (p.bind f).Only asks :=
  Keeps.bind first fun seen a _ => anywhere (next a) seen

theorem mapFailure {p : Program α} {f : Failure → Failure} (only : p.Only asks) :
    (p.mapFailure f).Only asks := (keeps_mapFailure p f []).mpr only

theorem read {q : Query} {f : Failure → Failure} (asked : asks (.query q)) :
    ((query q).mapFailure f).Only asks := .mapFailure (.ask asked .ofDatabase)

theorem attempt {p : Program α} (only : p.Only asks) : p.attempt.Only asks := by
  induction p with
  | done a => exact .done _
  | fail cause => exact .done _
  | ask r next ih =>
    obtain ⟨first, others⟩ := ask_iff.mp only
    exact .ask first fun answer => ih answer (others answer)

theorem mono {p : Program α} {others : Request → Prop} (only : p.Only asks)
    (allowed : ∀ r, asks r → others r) : p.Only others :=
  Keeps.mono only (fun _ => allowed) (fun _ _ => id) fun _ _ => id

theorem asked {p : Program α} (only : p.Only asks) {trace : List Event} {result : Outcome α}
    (run : Runs p trace result) : ∀ e ∈ trace, asks e.1 := by
  intro e member
  obtain ⟨before, after, rfl⟩ := List.append_of_mem member
  exact Keeps.asked only run

end Only

/-- The answers settle how far a run goes, and what it comes to. -/
theorem Runs.unique {p : Program α} {first other rest more : List Event}
    {result another : Outcome α} (run : Runs p first result) (runToo : Runs p other another)
    (same : first ++ rest = other ++ more) : first = other ∧ rest = more ∧ result = another := by
  induction run generalizing other with
  | done a =>
    cases runToo
    exact ⟨rfl, same, rfl⟩
  | fail cause =>
    cases runToo
    exact ⟨rfl, same, rfl⟩
  | ask answer others ih =>
    cases runToo with
    | ask answerToo othersToo =>
      obtain ⟨sameEvent, sameLater⟩ := List.cons.inj same
      cases sameEvent
      obtain ⟨rfl, rfl, rfl⟩ := ih othersToo sameLater
      exact ⟨rfl, rfl, rfl⟩

theorem runs_bind {p : Program α} {f : α → Program β} {trace : List Event} {result : Outcome β} :
    Runs (p.bind f) trace result ↔
      (∃ first a rest, trace = first ++ rest ∧ Runs p first (.ok a) ∧ Runs (f a) rest result) ∨
      ∃ cause, Runs p trace (.error cause) ∧ result = .error cause := by
  induction p generalizing trace result with
  | done a =>
    constructor
    · intro run
      exact .inl ⟨[], a, trace, rfl, .done a, run⟩
    · rintro (⟨first, b, rest, rfl, run, others⟩ | ⟨cause, run, -⟩)
      · cases run
        exact others
      · cases run
  | fail cause =>
    constructor
    · intro run
      cases run
      exact .inr ⟨cause, .fail cause, rfl⟩
    · rintro (⟨first, a, rest, -, run, -⟩ | ⟨cause', run, rfl⟩)
      · cases run
      · cases run
        exact .fail cause
  | ask r next ih =>
    constructor
    · intro run
      cases run with
      | ask answer run =>
        rcases (ih answer).mp run with ⟨first, a, rest, rfl, own, others⟩ | ⟨cause, own, rfl⟩
        · exact .inl ⟨_, a, rest, rfl, .ask answer own, others⟩
        · exact .inr ⟨cause, .ask answer own, rfl⟩
    · rintro (⟨first, a, rest, rfl, run, others⟩ | ⟨cause, run, rfl⟩)
      · cases run with
        | ask answer run =>
          exact .ask answer ((ih answer).mpr (.inl ⟨_, a, rest, rfl, run, others⟩))
      · cases run with
        | ask answer run => exact .ask answer ((ih answer).mpr (.inr ⟨cause, run, rfl⟩))

theorem runs_mapFailure {p : Program α} {f : Failure → Failure} {trace : List Event}
    {result : Outcome α} : Runs (p.mapFailure f) trace result ↔
      ∃ inner, Runs p trace inner ∧ result = inner.mapError f := by
  induction p generalizing trace result with
  | done a =>
    constructor
    · intro run
      cases run
      exact ⟨.ok a, .done a, rfl⟩
    · rintro ⟨inner, run, rfl⟩
      cases run
      exact .done a
  | fail cause =>
    constructor
    · intro run
      cases run
      exact ⟨.error cause, .fail cause, rfl⟩
    · rintro ⟨inner, run, rfl⟩
      cases run
      exact .fail (f cause)
  | ask r next ih =>
    constructor
    · intro run
      cases run with
      | ask answer run =>
        obtain ⟨inner, own, rfl⟩ := (ih answer).mp run
        exact ⟨inner, .ask answer own, rfl⟩
    · rintro ⟨inner, run, rfl⟩
      cases run with
      | ask answer run => exact .ask answer ((ih answer).mpr ⟨inner, run, rfl⟩)

theorem runs_attempt {p : Program α} {trace : List Event} {result : Outcome (Outcome α)} :
    Runs p.attempt trace result ↔ ∃ inner, Runs p trace inner ∧ result = .ok inner := by
  induction p generalizing trace result with
  | done a =>
    constructor
    · intro run
      cases run
      exact ⟨.ok a, .done a, rfl⟩
    · rintro ⟨inner, run, rfl⟩
      cases run
      exact .done _
  | fail cause =>
    constructor
    · intro run
      cases run
      exact ⟨.error cause, .fail cause, rfl⟩
    · rintro ⟨inner, run, rfl⟩
      cases run
      exact .done _
  | ask r next ih =>
    constructor
    · intro run
      cases run with
      | ask answer run =>
        obtain ⟨inner, own, rfl⟩ := (ih answer).mp run
        exact ⟨inner, .ask answer own, rfl⟩
    · rintro ⟨inner, run, rfl⟩
      cases run with
      | ask answer run => exact .ask answer ((ih answer).mpr ⟨inner, run, rfl⟩)

/-- What is asked and answered when the work runs in a world, and what it comes to. -/
def observe {σ : Type} (world : (r : Request) → σ → r.Answer × σ) :
    Program α → σ → List Event × Outcome α
  | .done a, _ => ([], .ok a)
  | .fail cause, _ => ([], .error cause)
  | .ask r next, s =>
    let rest := (next (world r s).1).observe world (world r s).2
    (⟨r, (world r s).1⟩ :: rest.1, rest.2)

theorem runs_observe {σ : Type} (world : (r : Request) → σ → r.Answer × σ) (p : Program α)
    (s : σ) : Runs p (p.observe world s).1 (p.observe world s).2 := by
  induction p generalizing s with
  | done a => exact .done a
  | fail cause => exact .fail cause
  | ask r next ih => exact .ask _ (ih _ _)

/-- A world that answers a question in one way, whenever it is asked. -/
def steady (answer : (r : Request) → r.Answer) (r : Request) (_ : Unit) : r.Answer × Unit :=
  (answer r, ())

theorem steady_answers (answer : (r : Request) → r.Answer) (p : Program α) :
    ∀ e ∈ (p.observe (steady answer) ()).1, e.2 = answer e.1 := by
  induction p with
  | done a => exact List.forall_mem_nil _
  | fail cause => exact List.forall_mem_nil _
  | ask r next ih => exact List.forall_mem_cons.mpr ⟨rfl, ih _⟩

end ValidatorDays.Program
