import OwlFunctional.Grammar.Expression

/-! Runs of readings: what it takes for one to succeed, and what all of them keep.

A successful run falls into successful runs of its parts. What every answer to a query keeps is
kept by every run, also by one that fails.
-/

set_option autoImplicit false

namespace OwlFunctional

/-- A check that succeeds after another was reached with the value of the first one. -/
theorem exists_of_bind_ok {ε α β : Type} {first : Except ε α} {next : α → Except ε β} {value : β}
    (both : (first >>= next) = .ok value) :
    ∃ middle, first = .ok middle ∧ next middle = .ok value := by
  cases first with
  | error error => cases both
  | ok middle => exact ⟨middle, rfl, both⟩

namespace Program

variable {R S α : Type} [Signature R] {allowed : R → Prop}

theorem run_bind_ok {β : Type} {handler : Handler R S} {program : Program R β}
    {next : β → Program R α} {state after : S} {value : α} :
    (program >>= next).run handler state = (.ok value, after) ↔
      ∃ middle between, program.run handler state = (.ok middle, between) ∧
        (next middle).run handler between = (.ok value, after) := by
  rw [run_bind]
  rcases program.run handler state with ⟨error | middle, between⟩
  · simp
  · simp [and_assoc]

/-- Whatever the replies are, the program makes no other than the allowed requests. -/
def Asks (allowed : R → Prop) : Program R α → Prop
  | done _ => True
  | fail _ => True
  | ask request _ next => allowed request ∧ ∀ reply, (next reply).Asks allowed

theorem asks_any (program : Program R α) : program.Asks fun _ => True := by
  induction program with
  | done value => trivial
  | fail error => trivial
  | ask request refused next ih => exact ⟨trivial, ih⟩

/-- What each answer to an allowed request does to the state, a whole run does. -/
theorem Asks.run_relates {program : Program R α} (asks : program.Asks allowed)
    {handler : Handler R S} (relation : S → S → Prop) (same : ∀ state, relation state state)
    (chained : ∀ {first second third}, relation first second → relation second third →
      relation first third)
    (step : ∀ request state, allowed request → relation state (handler.answer request state).2)
    (state : S) : relation state (program.run handler state).2 := by
  induction program generalizing state with
  | done value => exact same state
  | fail error => exact same state
  | ask request refused next ih =>
    have first := step request state asks.1
    simp only [run]
    split
    · next reply after answered =>
      rw [answered] at first
      exact chained first (ih reply (asks.2 reply) after)
    · next reason after answered =>
      rw [answered] at first
      exact first

/-- What each answer does to the state, a whole run does. -/
theorem run_relates {handler : Handler R S} (relation : S → S → Prop)
    (same : ∀ state, relation state state)
    (chained : ∀ {first second third}, relation first second → relation second third →
      relation first third)
    (step : ∀ request state, relation state (handler.answer request state).2)
    (program : Program R α) (state : S) : relation state (program.run handler state).2 :=
  program.asks_any.run_relates relation same chained (fun request state _ => step request state)
    state

end Program

variable {σ α β : Type} [Store σ]

/-- A reading runs to its end and gives a value. -/
def Reads (checks : Checks) (reading : Reading α) (session : Session σ) (value : α)
    (after : Session σ) : Prop :=
  reading.run (Session.reader checks) session = (.ok value, after)

namespace Reads

variable {checks : Checks} {session after : Session σ} {value : α}

@[simp] theorem pure_iff {given : α} :
    Reads checks (pure given) session value after ↔ given = value ∧ session = after := by
  simp [Reads]

@[simp] theorem fail_iff {error : SyntaxError} :
    Reads checks (.fail error) session value after ↔ False := by
  simp [Reads]

@[simp] theorem failAt_iff {position : Position} {cause : Cause} :
    Reads checks (Reading.failAt position cause) session value after ↔ False := fail_iff

@[simp] theorem failOn_iff {scanned : Scanned} {cause : Lexeme → Cause} :
    Reads checks (Reading.failOn scanned cause) session value after ↔ False := fail_iff

theorem bind_iff {reading : Reading β} {next : β → Reading α} :
    Reads checks (reading >>= next) session value after ↔
      ∃ middle between, Reads checks reading session middle between ∧
        Reads checks (next middle) between value after := Program.run_bind_ok

/-- A reading that is known is left out of what is read with it. -/
theorem bind_run {reading : Reading β} {next : β → Reading α} {middle : β} {between : Session σ}
    (first : Reads checks reading session middle between) :
    (reading >>= next).run (Session.reader checks) session =
      (next middle).run (Session.reader checks) between := by
  rw [Program.run_bind, first]

theorem bind_after {reading : Reading β} {next : β → Reading α} {middle : β}
    {between : Session σ} (first : Reads checks reading session middle between) :
    Reads checks (reading >>= next) session value after ↔
      Reads checks (next middle) between value after := by
  rw [Reads, first.bind_run, Reads]

theorem token_bind_iff {next : Scanned → Reading α} :
    Reads checks (Reading.token >>= next) session value after ↔
      Reads checks (next session.stream.token.1)
        { session with stream := session.stream.token.2 } value after := Iff.rfl

theorem peek_bind_iff {next : Scanned → Reading α} :
    Reads checks (Reading.peek >>= next) session value after ↔
      Reads checks (next session.stream.token.1)
        { session with stream := session.stream.peek.2 } value after := Iff.rfl

theorem unscan_bind_iff {reading : Reading α} :
    Reads checks (Reading.unscan >>= fun _ => reading) session value after ↔
      Reads checks reading { session with stream := session.stream.unscan } value after := Iff.rfl

theorem map_iff {reading : Reading β} {make : β → α} :
    Reads checks (make <$> reading) session value after ↔
      ∃ middle, Reads checks reading session middle after ∧ make middle = value := by
  change Reads checks (reading >>= fun middle => pure (make middle)) _ _ _ ↔ _
  simp only [bind_iff, pure_iff]
  constructor
  · rintro ⟨middle, _, read, made, rfl⟩
    exact ⟨middle, read, made⟩
  · rintro ⟨middle, read, made⟩
    exact ⟨middle, after, read, made, rfl⟩

@[simp] theorem within_iff {reading : Reading α} {context : Context} :
    Reads checks (reading.within context) session value after ↔
      Reads checks reading session value after := by
  unfold Reads
  rw [Program.run_within]
  rcases reading.run (Session.reader checks) session with ⟨error | middle, between⟩ <;> simp

theorem token_iff {scanned : Scanned} : Reads checks Reading.token session scanned after ↔
    session.stream.token.1 = scanned ∧
      { session with stream := session.stream.token.2 } = after := by
  change ((.ok session.stream.token.1, { session with stream := session.stream.token.2 }) :
    Except SyntaxError Scanned × Session σ) = _ ↔ _
  simp

theorem peek_iff {scanned : Scanned} : Reads checks Reading.peek session scanned after ↔
    session.stream.token.1 = scanned ∧
      { session with stream := session.stream.peek.2 } = after := by
  change ((.ok session.stream.peek.1, { session with stream := session.stream.peek.2 }) :
    Except SyntaxError Scanned × Session σ) = _ ↔ _
  simp [Stream.peek]

theorem unscan_iff : Reads checks Reading.unscan session () after ↔
    { session with stream := session.stream.unscan } = after := by
  change ((.ok (), { session with stream := session.stream.unscan }) :
    Except SyntaxError Unit × Session σ) = _ ↔ _
  simp

theorem here_iff {position : Position} : Reads checks Reading.here session position after ↔
    session.stream.position = position ∧ session = after := by
  change ((.ok session.stream.position, session) :
    Except SyntaxError Position × Session σ) = _ ↔ _
  simp

theorem subtag_iff {found : Subtag} : Reads checks Reading.subtag session found after ↔
    session.stream.subtag.1 = found ∧
      { session with stream := session.stream.subtag.2 } = after := by
  change ((.ok session.stream.subtag.1, { session with stream := session.stream.subtag.2 }) :
    Except SyntaxError Subtag × Session σ) = _ ↔ _
  simp

@[simp] theorem report_iff {event : Event} {reply : Unit} :
    Reads checks (Reading.report event) session reply after ↔ session = after := by
  change ((.ok (), session) : Except SyntaxError Unit × Session σ) = _ ↔ _
  simp

theorem find_iff {kind : EntityKind} {iri : Iri} {unknown : SyntaxError} {entity : Entity kind} :
    Reads checks (Reading.find kind iri unknown) session entity after ↔
      ∃ store, Store.find kind iri session.store = (some entity, store) ∧
        { session with store := store } = after := by
  unfold Reads Reading.find
  simp only [Program.run, Session.reader, Session.answer]
  rcases Store.find kind iri session.store with ⟨none | found, store⟩
  · simp
  · simp [and_assoc]

theorem checkIri_iff {text : String} {invalid : IriError → SyntaxError} :
    Reads checks (Reading.checkIri text invalid) session () after ↔
      checks.iri text = none ∧ session = after := by
  unfold Reads Reading.checkIri
  simp only [Program.run, Session.reader, Session.answer]
  cases checks.iri text <;> simp [Session.verdict]

theorem checkTag_iff {tag : String} {invalid : TagError → SyntaxError} :
    Reads checks (Reading.checkTag tag invalid) session () after ↔
      checks.tag tag = none ∧ session = after := by
  unfold Reads Reading.checkTag
  simp only [Program.run, Session.reader, Session.answer]
  cases checks.tag tag <;> simp [Session.verdict]

theorem expect_iff {token : Token} : Reads checks (Reading.expect token) session () after ↔
    ∃ scanned, Reads checks Reading.token session scanned after ∧ scanned.token = token := by
  unfold Reading.expect
  rw [bind_iff]
  constructor
  · rintro ⟨scanned, between, scan, read⟩
    split at read
    · next same =>
      obtain ⟨-, rfl⟩ := pure_iff.mp read
      exact ⟨scanned, scan, same⟩
    · simp at read
  · rintro ⟨scanned, scan, same⟩
    exact ⟨scanned, after, scan, by simp [same]⟩

theorem closed_iff {inside : Reading α} :
    Reads checks (do
      let found ← inside
      Reading.expect .closeParen
      pure found) session value after ↔
      ∃ inner, Reads checks inside session value inner ∧
        Reads checks (Reading.expect .closeParen) inner () after := by
  rw [bind_iff]
  constructor
  · rintro ⟨found, inner, core, read⟩
    obtain ⟨_, closed, close, read⟩ := bind_iff.mp read
    obtain ⟨rfl, rfl⟩ := pure_iff.mp read
    exact ⟨inner, core, close⟩
  · rintro ⟨inner, core, close⟩
    exact ⟨value, inner, core, bind_iff.mpr ⟨(), after, close, pure_iff.mpr ⟨rfl, rfl⟩⟩⟩

theorem expectBoth_iff {first second : Token} :
    Reads checks (Reading.expectAll [first, second]) session () after ↔
      ∃ between, Reads checks (Reading.expect first) session () between ∧
        Reads checks (Reading.expect second) between () after := by
  unfold Reading.expectAll Reading.expectAll Reading.expectAll
  constructor
  · intro read
    obtain ⟨_, between, one, read⟩ := bind_iff.mp read
    obtain ⟨_, ended, two, read⟩ := bind_iff.mp read
    obtain ⟨-, rfl⟩ := pure_iff.mp read
    exact ⟨between, one, two⟩
  · rintro ⟨between, one, two⟩
    exact bind_iff.mpr ⟨(), between, one, bind_iff.mpr ⟨(), after, two, pure_iff.mpr ⟨rfl, rfl⟩⟩⟩

/-- A construct falls into its opening, its inside and its closing parenthesis. -/
theorem enclosed_iff {keyword : Keyword} {inside : Reading α} :
    Reads checks (Grammar.enclosed keyword inside) session value after ↔
      ∃ named opened inner, Reads checks (Reading.expect (.keyword keyword)) session () named ∧
        Reads checks (Reading.expect .openParen) named () opened ∧
        Reads checks inside opened value inner ∧
        Reads checks (Reading.expect .closeParen) inner () after := by
  unfold Grammar.enclosed
  rw [bind_iff]
  constructor
  · rintro ⟨_, opened, opening, read⟩
    obtain ⟨named, word, paren⟩ := expectBoth_iff.mp opening
    obtain ⟨inner, core, close⟩ := closed_iff.mp read
    exact ⟨named, opened, inner, word, paren, core, close⟩
  · rintro ⟨named, opened, inner, word, paren, core, close⟩
    exact ⟨(), opened, expectBoth_iff.mpr ⟨named, word, paren⟩, closed_iff.mpr ⟨inner, core, close⟩⟩

/-- What each answer to a query does to a session, a successful reading does. -/
theorem relates (relation : Session σ → Session σ → Prop) (same : ∀ state, relation state state)
    (chained : ∀ {first second third}, relation first second → relation second third →
      relation first third)
    (step : ∀ query state, relation state (Session.answer checks query state).2)
    {reading : Reading α} (read : Reads checks reading session value after) :
    relation session after := by
  have kept : relation session (reading.run (Session.reader checks) session).2 :=
    Program.run_relates relation same chained step reading session
  rw [read] at kept
  exact kept

end Reads

end OwlFunctional
