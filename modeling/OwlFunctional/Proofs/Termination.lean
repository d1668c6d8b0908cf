import OwlFunctional.Proofs.Bounds
import OwlFunctional.Proofs.Uniformity.Grammar

/-! The reading of a document comes to its end, whatever the input and the store are.

All that is repeated or nested has a bound, so that every run ends. Here the bounds are shown not
to matter: no run meets a bound that is as wide as the input, and wider bounds change nothing. What
stands behind this is that each loop reads a token in every round but the last one.
-/

set_option autoImplicit false

namespace OwlFunctional

open Grammar

variable {α : Type}

theorem Program.bind_assoc {R β γ : Type} [Signature R] (program : Program R α)
    (next : α → Program R β) (last : β → Program R γ) :
    program >>= next >>= last = program >>= fun value => next value >>= last := by
  change (program.bind next).bind last = program.bind fun value => (next value).bind last
  induction program with
  | done value => rfl
  | fail error => rfl
  | ask request refused reply ih => exact congrArg _ (funext ih)

theorem Program.bind_done {R : Type} [Signature R] (program : Program R α) :
    program >>= pure = program := by
  change program.bind done = program
  induction program with
  | done value => rfl
  | fail error => rfl
  | ask request refused reply ih => exact congrArg _ (funext ih)

/-! ## Rounds -/

/-- A loop repeats a round, which gives the state of the next round or the result. A round that is
not the last one has read a token. -/
structure Repeats {R σ State : Type} [Signature R] (handler : Handler R (Session σ))
    (loop : State → Nat → Program R α) (round : State → Program R (State ⊕ α)) : Prop where
  unrolls : ∀ state limit, loop state (limit + 1) =
    round state >>= Sum.elim (fun next => loop next limit) pure
  passes : ∀ {state next : State} {session after : Session σ},
    (round state).run handler session = (.ok (.inl next), after) →
    Passes session.stream.ahead after.stream.ahead

/-- Where no token is left, a round is the last one. -/
theorem Repeats.leaves {R σ State : Type} [Signature R] {handler : Handler R (Session σ)}
    {loop : State → Nat → Program R α} {round : State → Program R (State ⊕ α)}
    (repeats : Repeats handler loop round) {session : Session σ}
    (exhausted : significant session.stream.ahead = []) (state next : State)
    (after : Session σ) : (round state).run handler session ≠ (.ok (.inl next), after) :=
  fun again => Passes.not_of_exhausted exhausted (repeats.passes again)

namespace Round

open Reading

def untilClose (item : Reading α) (read : List α) : Reading (List α ⊕ List α) := do
  let next ← peek
  match next.token with
  | .closeParen => pure (.inr read.reverse)
  | .eof => failOn (← peek) (.needed .closing)
  | _ => do
    let value ← item
    pure (.inl (value :: read))

def facets (scope : Scope) (read : List FacetRestriction) :
    Reading (List FacetRestriction ⊕ List FacetRestriction) := do
  let next ← peek
  if next.token = .closeParen then pure (.inr read.reverse)
  else do
    let pair ← (facetPair scope).within (.facetNumber (read.length + 1))
    pure (.inl (pair :: read))

def annotations (scope : Scope) (read : List Annotation) :
    Reading (List Annotation ⊕ List Annotation) := do
  let next ← peek
  if next.token = .keyword .annotationTerm then do
    let note ← (singleNote scope).within (.annotationNumber (read.length + 1))
    pure (.inl (note :: read))
  else pure (.inr read.reverse)

def language (tag : String) : Reading (String ⊕ String) := do
  match ← subtag with
  | .piece text => pure (.inl (tag ++ text))
  | .broken found => failOn found .noSubtag
  | .absent position => do
    checkTag tag fun error => .found position (.invalidTag tag error)
    pure (.inr tag)

def preamble (state : Prefixes × List String) :
    Reading ((Prefixes × List String) ⊕ Ontology) := do
  let next ← token
  match next.token with
  | .keyword .prefixBinding => do
    unscan
    let binding ← (prefixBinding state.2).within .prefixBinding
    pure (.inl (state.1.insert binding.label binding.space, binding.label :: state.2))
  | .keyword .ontology => do
    unscan
    let ontology ← header state.1
    pure (.inr ontology)
  | .eof => failAt next.position .noOntology
  | _ => failOn next (.needed .preamble)

def bodyAfter : Option Statement → Writing (Unit ⊕ Unit)
  | none => pure (.inr ())
  | some statement => do
    write statement
    pure (.inl ())

def body (scope : Scope) (_ : Unit) : Writing (Unit ⊕ Unit) :=
  Writing.ofReading (statement? scope) >>= bodyAfter

end Round

/-- The loops of a reading with their rounds. -/
inductive Loop : {State α : Type} → (State → Nat → Reading α) → (State → Reading (State ⊕ α)) →
    Prop where
  | untilClose {α : Type} {item : Reading α} : Construct item →
      Loop (Reading.untilClose item) (Round.untilClose item)
  | facets (scope : Scope) : Loop (facets scope) (Round.facets scope)
  | annotations (scope : Scope) : Loop (annotationsAfter scope) (Round.annotations scope)
  | language : Loop languageRest Round.language
  | preamble : Loop (fun state : Prefixes × List String => preamble state.1 state.2) Round.preamble

section

variable {σ : Type} [Store σ] {checks : Checks}

theorem item_unrolls {β State : Type} (item : Reading β) (onward : β → State)
    (rest : State → Reading α) :
    (item >>= fun value => rest (onward value)) =
      (item >>= fun value => pure (.inl (onward value))) >>= Sum.elim rest pure := by
  rw [Program.bind_assoc]
  rfl

theorem untilClose_repeats {item : Reading α} (advances : Advances item) :
    Repeats (Session.reader checks : Handler Query (Session σ)) (Reading.untilClose item)
      (Round.untilClose item) := by
  constructor
  · -- Both sides look at the next token first, and then go on in the same way for each of them.
    intro read limit
    unfold Round.untilClose
    rw [Program.bind_assoc]
    refine congrArg (Reading.peek >>= ·) (funext fun next => ?_)
    generalize next.token = kind
    cases kind with
    | closeParen => rfl
    | eof => rfl
    | _ => exact item_unrolls item (· :: read) fun state => Reading.untilClose item state limit
  · intro read found session after again
    obtain ⟨next, peeked, look, again⟩ := Reads.bind_iff.mp again
    have start := Forward.peek.suffix look
    -- Only the round that reads an item is not the last one.
    split at again
    · simp at again
    · obtain ⟨_, _, _, again⟩ := Reads.bind_iff.mp again
      simp at again
    · obtain ⟨value, ended, core, again⟩ := Reads.bind_iff.mp again
      obtain ⟨-, rfl⟩ := Reads.pure_iff.mp again
      exact (advances.passes core).of_suffix start

theorem facets_repeats (scope : Scope) :
    Repeats (Session.reader checks : Handler Query (Session σ)) (facets scope)
      (Round.facets scope) := by
  constructor
  · intro read limit
    unfold Round.facets
    rw [Program.bind_assoc]
    refine congrArg (Reading.peek >>= ·) (funext fun next => ?_)
    by_cases close : next.token = .closeParen
    · simp only [if_pos close]
      rfl
    · simp only [if_neg close]
      exact item_unrolls ((facetPair scope).within (.facetNumber (read.length + 1)))
        (· :: read) fun state => facets scope state limit
  · intro read found session after again
    obtain ⟨next, peeked, look, again⟩ := Reads.bind_iff.mp again
    split at again
    · simp at again
    · obtain ⟨pair, ended, core, again⟩ := Reads.bind_iff.mp again
      obtain ⟨-, rfl⟩ := Reads.pure_iff.mp again
      have passes := (facetPair_advances scope).passes (Reads.within_iff.mp core)
      exact passes.of_suffix (Forward.peek.suffix look)

theorem annotations_repeats (scope : Scope) :
    Repeats (Session.reader checks : Handler Query (Session σ)) (annotationsAfter scope)
      (Round.annotations scope) := by
  constructor
  · intro read limit
    unfold Round.annotations
    rw [Program.bind_assoc]
    refine congrArg (Reading.peek >>= ·) (funext fun next => ?_)
    by_cases starts : next.token = .keyword .annotationTerm
    · simp only [if_pos starts]
      exact item_unrolls ((singleNote scope).within (.annotationNumber (read.length + 1)))
        (· :: read) fun state => annotationsAfter scope state limit
    · simp only [if_neg starts]
      rfl
  · intro read found session after again
    obtain ⟨next, peeked, look, again⟩ := Reads.bind_iff.mp again
    split at again
    · obtain ⟨note, ended, core, again⟩ := Reads.bind_iff.mp again
      obtain ⟨-, rfl⟩ := Reads.pure_iff.mp again
      have passes := (Construct.annotation scope).advances.passes (Reads.within_iff.mp core)
      exact passes.of_suffix (Forward.peek.suffix look)
    · simp at again

theorem language_repeats :
    Repeats (Session.reader checks : Handler Query (Session σ)) languageRest Round.language := by
  constructor
  · intro tag limit
    refine congrArg (Reading.subtag >>= ·) (funext fun found => ?_)
    cases found with
    | piece text => rfl
    | broken found => rfl
    | absent position => rfl
  · intro tag found session after again
    obtain ⟨piece, between, scan, again⟩ := Reads.bind_iff.mp again
    obtain ⟨same, rfl⟩ := Reads.subtag_iff.mp scan
    split at again
    · obtain ⟨-, rfl⟩ := Reads.pure_iff.mp again
      exact Stream.subtag_passes same
    · simp at again
    · obtain ⟨_, _, _, again⟩ := Reads.bind_iff.mp again
      simp at again

theorem preamble_repeats :
    Repeats (Session.reader checks : Handler Query (Session σ))
      (fun state : Prefixes × List String => preamble state.1 state.2) Round.preamble := by
  constructor
  · intro state limit
    unfold Round.preamble
    rw [Program.bind_assoc]
    refine congrArg (Reading.token >>= ·) (funext fun next => ?_)
    generalize next.token = kind
    cases kind with
    | eof => rfl
    | keyword reserved =>
      cases reserved with
      | prefixBinding =>
        dsimp only
        rw [Program.bind_assoc]
        refine congrArg (Reading.unscan >>= ·) (funext fun _ => ?_)
        exact item_unrolls ((prefixBinding state.2).within .prefixBinding)
          (fun binding => (state.1.insert binding.label binding.space, binding.label :: state.2))
          fun next => preamble next.1 next.2 limit
      | ontology =>
        -- The header is the last round, so the loop adds nothing but the end of a program.
        dsimp only
        rw [Program.bind_assoc]
        refine congrArg (Reading.unscan >>= ·) (funext fun _ => ?_)
        rw [Program.bind_assoc]
        exact (Program.bind_done _).symm
      | _ => rfl
    | _ => rfl
  · intro state found session after again
    obtain ⟨next, between, scan, again⟩ := Reads.bind_iff.mp again
    split at again
    · obtain ⟨_, seen, back, again⟩ := Reads.bind_iff.mp again
      obtain ⟨binding, ended, core, again⟩ := Reads.bind_iff.mp again
      obtain ⟨-, rfl⟩ := Reads.pure_iff.mp again
      have passes := (prefixBinding_advances state.2).passes (Reads.within_iff.mp core)
      exact passes.of_suffix (scan.putBack_suffix back)
    · obtain ⟨_, _, _, again⟩ := Reads.bind_iff.mp again
      obtain ⟨_, _, _, again⟩ := Reads.bind_iff.mp again
      simp at again
    · simp at again
    · simp at again

theorem Loop.repeats {State : Type} {loop : State → Nat → Reading α}
    {round : State → Reading (State ⊕ α)} (looping : Loop loop round) :
    Repeats (Session.reader checks : Handler Query (Session σ)) loop round := by
  cases looping with
  | untilClose construct => exact untilClose_repeats construct.advances
  | facets scope => exact facets_repeats scope
  | annotations scope => exact annotations_repeats scope
  | language => exact language_repeats
  | preamble => exact preamble_repeats

theorem statement_passes {scope : Scope} {session after : Session σ} {statement : Statement}
    (read : Reads checks (statement? scope) session (some statement) after) :
    Passes session.stream.ahead after.stream.ahead := by
  obtain ⟨next, between, scan, read⟩ := Reads.bind_iff.mp read
  split at read
  · simp at read
  · obtain ⟨_, back, unscan, read⟩ := Reads.bind_iff.mp read
    have start := scan.putBack_suffix unscan
    split at read
    · obtain ⟨found, core, -⟩ := Reads.map_iff.mp read
      exact ((Construct.declaration scope).advances.passes core).of_suffix start
    · obtain ⟨found, core, -⟩ := Reads.map_iff.mp read
      exact ((assertion_advances scope next).passes core).of_suffix start

theorem body_repeats (scope : Scope) :
    Repeats (Session.writer checks : Handler Command (Session σ)) (fun _ => body scope)
      (Round.body scope) := by
  constructor
  · intro _ limit
    rw [body_succ, Round.body, Program.bind_assoc]
    refine congrArg (Writing.ofReading (statement? scope) >>= ·) (funext fun found => ?_)
    cases found with
    | none => rfl
    | some statement =>
      unfold bodyAfter Round.bodyAfter
      rw [Program.bind_assoc]
      rfl
  · intro _ _ session after again
    rw [Round.body, Program.run_bind, Writing.run_ofReading] at again
    rcases read : (statement? scope).run (Session.reader checks) session with
      ⟨error | _ | statement, between⟩
    · simp [read] at again
    · simp [read, Round.bodyAfter] at again
    · simp only [read, Round.bodyAfter, Program.run_bind] at again
      rcases wrote : (write statement).run (Session.writer checks) between with
        ⟨error | _, written⟩
      · simp [wrote] at again
      · simp only [wrote, Program.run_pure, Prod.mk.injEq, true_and] at again
        subst again
        rw [write_unmoved wrote]
        exact statement_passes read

end

theorem Stream.token_round (stream : Stream) :
    (stream.next.token.isTrivia = true → stream.ahead = stream.next :: stream.scan.2.ahead ∧
      stream.token = stream.scan.2.token) ∧
    (stream.next.token.isTrivia = false → stream.token = stream.scan) := by
  cases ahead : stream.ahead with
  | nil => simp [next, ahead, Lexeme.eof, Token.isTrivia, token, leadingTrivia, skip]
  | cons lexeme rest =>
    have first : stream.next = lexeme := by simp [next, ahead]
    rw [first]
    constructor
    · intro trivia
      have further : stream.leadingTrivia = stream.scan.2.leadingTrivia + 1 := by
        simp [leadingTrivia, ahead, trivia]
      exact ⟨by simp [ahead], by rw [token, further, skip, token]⟩
    · intro telling
      simp [token, leadingTrivia, ahead, telling, skip]

theorem Lexeme.cutAll_of_le {few many : Nat} {text : List Char} (enough : text.length ≤ few)
    (le : few ≤ many) (read : List Lexeme) (looksAtEnd : Bool) :
    cutAll many read looksAtEnd text = cutAll few read looksAtEnd text := by
  induction few generalizing many text read looksAtEnd with
  | zero =>
    obtain rfl := List.length_eq_zero_iff.mp (Nat.le_zero.mp enough)
    cases many <;> rfl
  | succ few ih =>
    obtain ⟨many, rfl⟩ := Nat.exists_eq_add_of_lt le
    cases text with
    | nil => rfl
    | cons first rest =>
      -- A cut takes the first character at least.
      have fewer := cut_rest_length_le first rest
      rw [List.length_cons] at enough
      have shorter : (cut first rest).rest.length ≤ few := by omega
      exact ih shorter (Nat.le_add_right few many) _ _

/-! ## Bounds -/

theorem Query.alike_refl (query : Query) (reply : Signature.Reply query) :
    query.Alike Eq reply reply := by
  cases query with
  | token => exact ⟨rfl, rfl⟩
  | peek => exact ⟨rfl, rfl⟩
  | subtag =>
    cases reply with
    | piece text => exact .piece text
    | broken found => exact .broken ⟨rfl, rfl⟩
    | absent position => exact .absent rfl
  | _ => rfl

theorem Command.alike_refl (command : Command) (reply : Signature.Reply command) :
    command.Alike Eq reply reply := by
  cases command with
  | query query => exact query.alike_refl reply
  | _ => rfl

/-- A program and one with wider bounds give the same in the same state. -/
theorem Program.Alike.run_eq {R S : Type} [Signature R]
    {agree : (request : R) → Signature.Reply request → Signature.Reply request → Prop}
    {first second : Program R α} (alike : Alike Eq agree Eq first second)
    (same : ∀ request reply, agree request reply reply) {handler : Handler R S} {state : S}
    (unmet : ∀ error after, first.run handler state = (.error error, after) →
      error.cause ≠ .limitReached) :
    second.run handler state = first.run handler state := by
  have runs := alike.run Eq (fun request state twin start => by
    subst start
    rcases handler.answer request state with ⟨reason | reply, after⟩
    · exact .error rfl rfl
    · exact .ok (same request reply) rfl) rfl unmet
  generalize first.run handler state = left at runs
  generalize second.run handler state = right at runs
  cases runs with
  | ok given kept => rw [given, kept]
  | @error left right _ _ close kept =>
    obtain ⟨cause, contexts, position⟩ := close
    cases left
    cases right
    simp_all

namespace Document

variable {σ : Type} [Store σ]

/-- The header, the result and the session at the end of a document, if no more than the given
number is nested or repeated in it. -/
def performWithin (bound : Nat) (settings : Settings) (session : Session σ) :
    Option Ontology × Except SyntaxError Ontology × Session σ :=
  let session := prepare settings session
  match (Grammar.preamble settings.prefixes [] bound).run (Session.reader settings.checks)
    session with
  | (.error error, after) => (none, .error error, after)
  | (.ok ontology, middle) =>
    let (result, after) := (Grammar.statements ⟨ontology.prefixes, bound⟩).run
      (Session.writer settings.checks) middle
    (some ontology, result.map fun _ => ontology, after)

theorem preamble_unmet {settings : Settings} {session after : Session σ} {error : SyntaxError}
    (failed : (preamble settings session).run (Session.reader settings.checks) session =
      (.error error, after)) : error.cause ≠ .limitReached :=
  (preamble_bounded _ _ _).unmet (Nat.lt_succ_self _) failed

theorem statements_unmet {ontology : Ontology} {checks : Checks} {middle after : Session σ}
    {error : SyntaxError}
    (failed : (statements ontology middle).run (Session.writer checks) middle =
      (.error error, after)) : error.cause ≠ .limitReached := by
  rw [statements_run] at failed
  rcases ran : (body ⟨ontology.prefixes, limit middle⟩ (limit middle)).run
    (Session.writer checks) middle with ⟨found | _, closed⟩
  · rw [ran] at failed
    obtain ⟨same, rfl⟩ := Prod.mk.inj failed
    rw [← Except.error.inj same]
    exact body_unmet (Nat.lt_succ_self _) ran
  · rw [ran] at failed
    exact ending_bounded.unmet (Nat.lt_succ_self _) failed

theorem performWithin_eq {bound : Nat} {settings : Settings} {session : Session σ}
    (enough : limit session ≤ bound) :
    performWithin bound settings session = perform settings session := by
  unfold performWithin perform
  dsimp only
  have start : limit (prepare settings session) ≤ bound := by
    unfold limit
    rwa [prepare_ahead]
  generalize prepare settings session = prepared at start
  have first : (Grammar.preamble settings.prefixes [] bound).run
      (Session.reader settings.checks) prepared =
      (preamble settings prepared).run (Session.reader settings.checks) prepared :=
    (preamble_alike settings.prefixes [] start).run_eq Query.alike_refl
      fun _ _ => preamble_unmet
  rw [first]
  rcases read : (preamble settings prepared).run (Session.reader settings.checks) prepared with
    ⟨error | ontology, middle⟩
  · rfl
  · have shorter : middle.stream.ahead.length ≤ prepared.stream.ahead.length :=
      ((preamble_forward _ _ _).suffix read).length_le
    have wider : Scope.Within ⟨ontology.prefixes, limit middle⟩ ⟨ontology.prefixes, bound⟩ :=
      ⟨rfl, Nat.le_trans (Nat.succ_le_succ shorter) start⟩
    have second : (Grammar.statements ⟨ontology.prefixes, bound⟩).run
        (Session.writer settings.checks) middle =
        (statements ontology middle).run (Session.writer settings.checks) middle :=
      (statements_alike wider).run_eq Command.alike_refl fun _ _ => statements_unmet
    simp only [second]

theorem perform_unmet {settings : Settings} {session : Session σ} {error : SyntaxError}
    (failed : (perform settings session).2.1 = .error error) : error.cause ≠ .limitReached := by
  rcases perform_failed failed with ⟨after, failed⟩ | ⟨ontology, middle, after, -, failed⟩
  · exact preamble_unmet failed
  · exact statements_unmet failed

/-- Every document is read to an end, from any input and into any store. With any bound that is
wide enough the reading goes the same way and never meets it, and the same holds of the cuts of a
text into lexemes. Every construct that is read has passed a token. Every loop repeats a round that
passes a token or is the last one, and where no token is left it is the last one; trivia is passed
over in the same way. -/
theorem readInto_terminates :
    (∀ {σ : Type} [Store σ] (settings : Settings) (session : Session σ) (bound : Nat),
      limit session ≤ bound →
      readInto settings session = conclude (performWithin bound settings session).1
        (performWithin bound settings session).2.1 (performWithin bound settings session).2.2 ∧
      ∀ error, (performWithin bound settings session).2.1 = .error error →
        error.cause ≠ .limitReached) ∧
    (∀ (text : List Char) (bound : Nat), text.length ≤ bound →
      Lexeme.cutAll bound [] false text = Lexeme.sequence text) ∧
    (∀ {α : Type} {reading : Reading α}, Construct reading → Advances reading) ∧
    (∀ {State α : Type} {loop : State → Nat → Reading α} {round : State → Reading (State ⊕ α)},
      Loop loop round → ∀ {σ : Type} [Store σ] (checks : Checks),
      Repeats (Session.reader checks : Handler Query (Session σ)) loop round ∧
      ∀ session : Session σ, significant session.stream.ahead = [] → ∀ state next after,
        ¬ Reads checks (round state) session (.inl next) after) ∧
    (∀ {σ : Type} [Store σ] (checks : Checks) (scope : Scope),
      Repeats (Session.writer checks : Handler Command (Session σ)) (fun _ => body scope)
        (Round.body scope) ∧
      ∀ session : Session σ, significant session.stream.ahead = [] → ∀ next after,
        (Round.body scope ()).run (Session.writer checks) session ≠ (.ok (.inl next), after)) ∧
    ∀ stream : Stream,
      (stream.next.token.isTrivia = true → stream.ahead = stream.next :: stream.scan.2.ahead ∧
        stream.token = stream.scan.2.token) ∧
      (stream.next.token.isTrivia = false → stream.token = stream.scan) := by
  refine ⟨?_, ?_, Construct.advances, ?_, ?_, Stream.token_round⟩
  · intro σ _ settings session bound enough
    rw [performWithin_eq enough]
    exact ⟨readInto_eq_conclude settings session, fun error => perform_unmet⟩
  · intro text bound enough
    exact Lexeme.cutAll_of_le (Nat.le_refl _) enough [] false
  · intro State α loop round looping σ _ checks
    have repeats : Repeats (Session.reader checks : Handler Query (Session σ)) loop round :=
      looping.repeats
    exact ⟨repeats, fun session exhausted => repeats.leaves exhausted⟩
  · intro σ _ checks scope
    exact ⟨body_repeats scope, fun session exhausted =>
      (body_repeats scope).leaves exhausted ()⟩

end Document

end OwlFunctional
