import OwlFunctional.Proofs.Run

/-! Two runs of one program side by side.

A program decides by lexemes, entities and checks. Positions it only passes on, to errors and with
names; and a bound shows only where it is met. So programs that differ in their bounds make the
same requests as long as the replies differ in positions only, and end alike.
-/

set_option autoImplicit false

namespace OwlFunctional

/-! ## Replies and errors -/

def anywhere (_ _ : Position) : Prop := True

variable (near : Position → Position → Prop)

structure SyntaxError.Alike (first second : SyntaxError) : Prop where
  cause : first.cause = second.cause
  contexts : first.contexts = second.contexts
  position : near first.position second.position

structure Scanned.Alike (first second : Scanned) : Prop where
  lexeme : first.lexeme = second.lexeme
  position : near first.position second.position

inductive Subtag.Alike : Subtag → Subtag → Prop where
  | piece (text : String) : Alike (.piece text) (.piece text)
  | broken {first second : Scanned} : first.Alike near second →
      Alike (.broken first) (.broken second)
  | absent {first second : Position} : near first second → Alike (.absent first) (.absent second)

/-- Replies that differ in positions only. -/
def Query.Alike : (query : Query) → Signature.Reply query → Signature.Reply query → Prop
  | .token, first, second => Scanned.Alike near first second
  | .peek, first, second => Scanned.Alike near first second
  | .here, first, second => near first second
  | .subtag, first, second => Subtag.Alike near first second
  | .unscan, first, second => first = second
  | .find .., first, second => first = second
  | .checkIri _, first, second => first = second
  | .checkTag _, first, second => first = second
  | .report _, first, second => first = second

def Command.Alike : (command : Command) → Signature.Reply command → Signature.Reply command → Prop
  | .query asked, first, second => asked.Alike near first second
  | .declare .., first, second => first = second
  | .add _, first, second => first = second

def Named (first second : Iri × Position) : Prop := first.1 = second.1 ∧ near first.2 second.2

variable {near}

theorem SyntaxError.Alike.found {first second : Position} (close : near first second)
    (cause : Cause) : SyntaxError.Alike near (.found first cause) (.found second cause) :=
  ⟨rfl, rfl, close⟩

theorem SyntaxError.Alike.within {first second : SyntaxError} (alike : first.Alike near second)
    (context : Context) : (first.within context).Alike near (second.within context) :=
  ⟨alike.cause, congrArg (context :: ·) alike.contexts, alike.position⟩

/-! ## Programs -/

namespace Program

section

variable {R : Type} [Signature R] {α β γ δ : Type}

/-- Whatever the replies are, the program fails since a bound is met. -/
def Spent : Program R α → Prop
  | done _ => False
  | fail error => error.cause = .limitReached
  | ask _ refused next =>
    (∀ reason, (refused reason).cause = .limitReached) ∧ ∀ reply, (next reply).Spent

theorem Spent.bind {program : Program R α} (spent : program.Spent) (next : α → Program R β) :
    (program >>= next).Spent := by
  change (program.bind next).Spent
  induction program with
  | done value => exact spent.elim
  | fail error => exact spent
  | ask request refused reply ih => exact ⟨spent.1, fun answer => ih answer (spent.2 answer)⟩

theorem Spent.within {program : Program R α} (spent : program.Spent) (context : Context) :
    (program.within context).Spent := by
  induction program with
  | done value => exact spent.elim
  | fail error => exact spent
  | ask request refused reply ih => exact ⟨spent.1, fun answer => ih answer (spent.2 answer)⟩

theorem Spent.run {S : Type} {program : Program R α} (spent : program.Spent)
    (handler : Handler R S) (state : S) :
    ∃ error after, program.run handler state = (.error error, after) ∧
      error.cause = .limitReached := by
  induction program generalizing state with
  | done value => exact spent.elim
  | fail error => exact ⟨error, state, rfl, spent⟩
  | ask request refused reply ih =>
    simp only [Program.run]
    rcases handler.answer request state with ⟨reason | answer, after⟩
    · exact ⟨_, _, rfl, spent.1 reason⟩
    · exact ih answer (spent.2 answer) after

/-- Two programs make the same requests and end with the same, as long as the replies are alike and
the first one meets no bound. -/
inductive Alike (near : Position → Position → Prop)
    (agree : (request : R) → Signature.Reply request → Signature.Reply request → Prop)
    (same : α → β → Prop) : Program R α → Program R β → Prop where
  | done {first : α} {second : β} : same first second → Alike near agree same (done first) (done second)
  | fail {first second : SyntaxError} : first.Alike near second →
      Alike near agree same (fail first) (fail second)
  | ask {request : R} {refused other : Signature.Refusal request → SyntaxError}
      {next : Signature.Reply request → Program R α} {onward : Signature.Reply request → Program R β} :
      (∀ reason, (refused reason).Alike near (other reason)) →
      (∀ first second, agree request first second →
        Alike near agree same (next first) (onward second)) →
      Alike near agree same (ask request refused next) (ask request other onward)
  | spent {program : Program R α} (other : Program R β) : program.Spent →
      Alike near agree same program other

variable {agree : (request : R) → Signature.Reply request → Signature.Reply request → Prop}

theorem Alike.bind {same : α → β → Prop} {result : γ → δ → Prop} {first : Program R α}
    {second : Program R β} {next : α → Program R γ} {onward : β → Program R δ}
    (head : Alike near agree same first second)
    (tail : ∀ left right, same left right → Alike near agree result (next left) (onward right)) :
    Alike near agree result (first >>= next) (second >>= onward) := by
  induction head with
  | done given => exact tail _ _ given
  | fail alike => exact .fail alike
  | ask refused _ ih => exact .ask refused ih
  | spent other spent => exact .spent _ (spent.bind next)

theorem Alike.within {same : α → β → Prop} {first : Program R α} {second : Program R β}
    (alike : Alike near agree same first second) (context : Context) :
    Alike near agree same (first.within context) (second.within context) := by
  induction alike with
  | done given => exact .done given
  | fail alike => exact .fail (alike.within context)
  | ask refused _ ih => exact .ask (fun reason => (refused reason).within context) ih
  | spent other spent => exact .spent _ (spent.within context)

theorem Alike.imp {same result : α → β → Prop} {first : Program R α} {second : Program R β}
    (alike : Alike near agree same first second)
    (implied : ∀ left right, same left right → result left right) :
    Alike near agree result first second := by
  induction alike with
  | done given => exact .done (implied _ _ given)
  | fail alike => exact .fail alike
  | ask refused _ ih => exact .ask refused ih
  | spent other spent => exact .spent _ spent

end

end Program

variable {α β : Type}

abbrev Reading.Alike (near : Position → Position → Prop) (same : α → α → Prop)
    (first second : Reading α) : Prop := Program.Alike near (Query.Alike near) same first second

/-- A scope allows for no less than another one, with the same abbreviations. -/
structure Scope.Within (scope wide : Scope) : Prop where
  prefixes : scope.prefixes = wide.prefixes
  limit : scope.limit ≤ wide.limit

open Reading

namespace Reading.Alike

variable {same : α → α → Prop}

theorem value (given : α) : Reading.Alike near Eq (pure given) (pure given) := .done rfl

theorem andThen {first second : Reading β} {next onward : β → Reading α}
    (head : Reading.Alike near Eq first second)
    (tail : ∀ value, Reading.Alike near same (next value) (onward value)) :
    Reading.Alike near same (first >>= next) (second >>= onward) :=
  Program.Alike.bind head fun left _ given => given ▸ tail left

theorem map {first second : Reading β} (make : β → α) (alike : Reading.Alike near Eq first second) :
    Reading.Alike near Eq (make <$> first) (make <$> second) :=
  andThen alike fun found => value (make found)

theorem failAt {first second : Position} (close : near first second) (cause : Cause) :
    Reading.Alike near same (failAt first cause) (failAt second cause) := .fail (.found close cause)

theorem token : Reading.Alike near (Scanned.Alike near) token token :=
  .ask nofun fun _ _ alike => .done alike

theorem peek : Reading.Alike near (Scanned.Alike near) peek peek :=
  .ask nofun fun _ _ alike => .done alike

theorem here : Reading.Alike near near here here := .ask nofun fun _ _ alike => .done alike

theorem unscan : Reading.Alike near Eq unscan unscan := .ask nofun fun _ _ alike => .done alike

theorem subtag : Reading.Alike near (Subtag.Alike near) subtag subtag :=
  .ask nofun fun _ _ alike => .done alike

theorem report (event : Event) : Reading.Alike near Eq (report event) (report event) :=
  .ask nofun fun _ _ alike => .done alike

theorem find (kind : EntityKind) (iri : Iri) {first second : SyntaxError}
    (alike : first.Alike near second) :
    Reading.Alike near Eq (find kind iri first) (find kind iri second) :=
  .ask (fun _ => alike) fun _ _ same => .done same

theorem checkIri (text : String) {first second : IriError → SyntaxError}
    (alike : ∀ error, (first error).Alike near (second error)) :
    Reading.Alike near Eq (checkIri text first) (checkIri text second) :=
  .ask alike fun _ _ same => .done same

theorem checkTag (tag : String) {first second : TagError → SyntaxError}
    (alike : ∀ error, (first error).Alike near (second error)) :
    Reading.Alike near Eq (checkTag tag first) (checkTag tag second) :=
  .ask alike fun _ _ same => .done same

theorem atLimit (other : Reading α) : Reading.Alike near same limitReached other :=
  .spent other ⟨nofun, fun _ => rfl⟩

theorem scannedThen {first second : Reading Scanned} {next onward : Scanned → Reading α}
    (head : Reading.Alike near (Scanned.Alike near) first second)
    (tail : ∀ lexeme left right, near left right →
      Reading.Alike near same (next ⟨lexeme, left⟩) (onward ⟨lexeme, right⟩)) :
    Reading.Alike near same (first >>= next) (second >>= onward) := by
  apply Program.Alike.bind head
  rintro ⟨lexeme, left⟩ ⟨_, right⟩ ⟨rfl, close⟩
  exact tail lexeme left right close

theorem namedThen {first second : Reading (Iri × Position)} {next onward : Iri × Position → Reading α}
    (head : Reading.Alike near (Named near) first second)
    (tail : ∀ iri left right, near left right →
      Reading.Alike near same (next (iri, left)) (onward (iri, right))) :
    Reading.Alike near same (first >>= next) (second >>= onward) := by
  apply Program.Alike.bind head
  rintro ⟨iri, left⟩ ⟨_, right⟩ ⟨rfl, close⟩
  exact tail iri left right close

theorem ite {condition : Prop} [Decidable condition] {first second third fourth : Reading α}
    (yes : Reading.Alike near same first second) (no : Reading.Alike near same third fourth) :
    Reading.Alike near same (if condition then first else third)
      (if condition then second else fourth) := by
  by_cases given : condition
  · rwa [if_pos given, if_pos given]
  · rwa [if_neg given, if_neg given]

theorem expect (token : Token) : Reading.Alike near Eq (expect token) (expect token) := by
  apply scannedThen .token
  intro lexeme left right close
  exact ite (value ()) (failAt close _)

theorem expectAll (tokens : List Token) :
    Reading.Alike near Eq (expectAll tokens) (expectAll tokens) := by
  induction tokens with
  | nil => exact value ()
  | cons first rest ih => exact (expect first).andThen fun _ => ih

theorem accept (token : Token) : Reading.Alike near Eq (accept token) (accept token) := by
  apply scannedThen .token
  intro lexeme left right close
  exact ite (value true) (andThen .unscan fun _ => value false)

theorem enclosed {same : α → α → Prop} (keyword : Keyword) {first second : Reading α}
    (alike : Reading.Alike near same first second) :
    Reading.Alike near same (Grammar.enclosed keyword first) (Grammar.enclosed keyword second) := by
  apply andThen (expectAll _)
  intro _
  apply Program.Alike.bind alike
  intro left right given
  exact andThen (expect _) fun _ => .done given

theorem pair {γ : Type} {first second : Reading α} {third fourth : Reading β} (make : α → β → γ)
    (head : Reading.Alike near Eq first second) (tail : Reading.Alike near Eq third fourth) :
    Reading.Alike near Eq (do pure (make (← first) (← third)))
      (do pure (make (← second) (← fourth))) :=
  andThen head fun _ => andThen tail fun _ => value _

theorem untilClose {item other : Reading α} (alike : Reading.Alike near Eq item other)
    (read : List α) {few many : Nat} (le : few ≤ many) :
    Reading.Alike near Eq (untilClose item read few) (untilClose other read many) := by
  induction few generalizing read many with
  | zero => exact atLimit _
  | succ few ih =>
    obtain ⟨many, rfl⟩ := Nat.exists_eq_add_of_lt le
    apply scannedThen .peek
    intro lexeme left right close
    dsimp only [Scanned.token]
    split
    · exact value _
    · exact scannedThen .peek fun _ _ _ close => failAt close _
    · exact andThen alike fun found => ih (found :: read) (by omega)

end Reading.Alike

/-! ## Runs -/

/-- Two results of runs that are alike: values or errors that are related, and related states. -/
inductive Agrees {ε ζ S T : Type} (same : α → β → Prop) (close : ε → ζ → Prop)
    (related : S → T → Prop) : Except ε α × S → Except ζ β × T → Prop where
  | ok {first : α} {second : β} {state : S} {other : T} : same first second → related state other →
      Agrees same close related (.ok first, state) (.ok second, other)
  | error {first : ε} {second : ζ} {state : S} {other : T} : close first second →
      related state other → Agrees same close related (.error first, state) (.error second, other)

namespace Program

variable {R S T : Type} [Signature R]
  {agree : (request : R) → Signature.Reply request → Signature.Reply request → Prop}
  {same : α → β → Prop} {first : Program R α} {second : Program R β}

/-- If all answers are alike, then so are the runs, unless a bound is met. -/
theorem Alike.run (alike : Alike near agree same first second) {handler : Handler R S}
    {other : Handler R T} (related : S → T → Prop)
    (step : ∀ request state twin, related state twin → Agrees (agree request) Eq related
      (handler.answer request state) (other.answer request twin))
    {state : S} {twin : T} (start : related state twin)
    (unmet : ∀ error after, first.run handler state = (.error error, after) →
      error.cause ≠ .limitReached) :
    Agrees same (SyntaxError.Alike near) related (first.run handler state)
      (second.run other twin) := by
  induction alike generalizing state twin with
  | done given => exact .ok given start
  | fail alike => exact .error alike start
  | @ask request refused _ _ _ errors _ ih =>
    have answers := step request state twin start
    simp only [Program.run] at unmet ⊢
    generalize handler.answer request state = left at answers unmet
    generalize other.answer request twin = right at answers
    cases answers with
    | ok agreed kept => exact ih _ _ agreed kept unmet
    | error reasons kept =>
      subst reasons
      exact .error (errors _) kept
  | spent _ spent =>
    -- The second program may go on here, but the first one would tell of its bound.
    obtain ⟨error, after, met, cause⟩ := spent.run handler state
    exact absurd cause (unmet error after met)

/-- If all replies are close to themselves, and the program is to itself, then so is its error. -/
theorem Alike.run_itself {same : α → α → Prop} {program : Program R α}
    (alike : Alike near agree same program program)
    {handler : Handler R S} (kept : S → Prop)
    (step : ∀ request state, kept state → kept (handler.answer request state).2 ∧
      ∀ reply, (handler.answer request state).1 = .ok reply → agree request reply reply)
    {state : S} (start : kept state)
    (unmet : ∀ error after, program.run handler state = (.error error, after) →
      error.cause ≠ .limitReached) :
    kept (program.run handler state).2 ∧
      ∀ error, (program.run handler state).1 = .error error →
        near error.position error.position := by
  have answers : ∀ request state twin, state = twin ∧ kept state →
      Agrees (agree request) Eq (fun first second => first = second ∧ kept first)
        (handler.answer request state) (handler.answer request twin) := by
    rintro request state _ ⟨rfl, given⟩
    obtain ⟨stays, replies⟩ := step request state given
    generalize handler.answer request state = answered at stays replies
    rcases answered with ⟨reason | reply, after⟩
    · exact .error rfl ⟨rfl, stays⟩
    · exact .ok (replies reply rfl) ⟨rfl, stays⟩
  have runs := alike.run _ answers ⟨rfl, start⟩ unmet
  generalize program.run handler state = ran at runs
  cases runs with
  | ok _ related => exact ⟨related.2, by simp⟩
  | error close related =>
    refine ⟨related.2, ?_⟩
    rintro _ ⟨⟩
    exact close.position

/-- A successful run that keeps to what the answers are alike for has its like. -/
theorem Alike.run_ok (alike : Alike near agree same first second) {handler : Handler R S}
    {other : Handler R T} (related : S → T → Prop) (left : S → Prop)
    (stays : ∀ request state, left state → left (handler.answer request state).2)
    (step : ∀ request state twin reply after, related state twin →
      handler.answer request state = (.ok reply, after) → ¬ left after →
      ∃ answer final, other.answer request twin = (.ok answer, final) ∧
        agree request reply answer ∧ related after final)
    {state after : S} {twin : T} {value : α} (start : related state twin)
    (ran : first.run handler state = (.ok value, after)) (kept : ¬ left after) :
    ∃ result final, second.run other twin = (.ok result, final) ∧ same value result ∧
      related after final := by
  induction alike generalizing state twin with
  | done given =>
    obtain ⟨found, rfl⟩ := Prod.mk.inj ran
    rw [← Except.ok.inj found]
    exact ⟨_, _, rfl, given, start⟩
  | fail alike => simp at ran
  | @ask request refused _ next onward errors _ ih =>
    simp only [Program.run] at ran ⊢
    rcases answered : handler.answer request state with ⟨reason | reply, middle⟩
    · simp [answered] at ran
    · rw [answered] at ran
      -- What was left before is left at the end, too.
      have inside : ¬ left middle := by
        intro gone
        apply kept
        have ended := (next reply).run_relates (fun before after => left before → left after)
          (fun _ => id) (fun first second => second ∘ first) stays middle
        rw [show (next reply).run handler middle = _ from ran] at ended
        exact ended gone
      obtain ⟨answer, final, replied, agreed, again⟩ :=
        step request state twin reply middle start answered inside
      rw [replied]
      exact ih reply answer agreed again ran
  | spent _ spent =>
    obtain ⟨error, last, met, -⟩ := spent.run handler state
    simp [met] at ran

end Program

end OwlFunctional
