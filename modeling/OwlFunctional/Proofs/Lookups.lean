import OwlFunctional.Proofs.Composition
import OwlFunctional.Proofs.Parts
import OwlFunctional.Proofs.Statements

/-! Which entities a reading can look up, in every run of it.

This is told from the tree of its requests, so it holds for any store, and for runs that fail as
well as for those that succeed.
-/

set_option autoImplicit false

namespace OwlFunctional

namespace Program

variable {R S α β : Type} [Signature R] {allowed : R → Prop}

namespace Asks

theorem bind {program : Program R β} {next : β → Program R α} (first : program.Asks allowed)
    (rest : ∀ value, (next value).Asks allowed) : (program >>= next).Asks allowed := by
  change (program.bind next).Asks allowed
  induction program with
  | done value => exact rest value
  | fail error => trivial
  | ask request refused reply ih => exact ⟨first.1, fun answer => ih answer (first.2 answer)⟩

theorem map {program : Program R β} (make : β → α) (asks : program.Asks allowed) :
    (make <$> program).Asks allowed := asks.bind fun _ => trivial

theorem within {program : Program R α} (context : Context) (asks : program.Asks allowed) :
    (program.within context).Asks allowed := by
  induction program with
  | done value => trivial
  | fail error => trivial
  | ask request refused next ih => exact ⟨asks.1, fun answer => ih answer (asks.2 answer)⟩

theorem requests {program : Program R α} (asks : program.Asks allowed) (handler : Handler R S)
    (state : S) : ∀ request ∈ program.requests handler state, allowed request.1 := by
  induction program generalizing state with
  | done value => simp [Program.requests]
  | fail error => simp [Program.requests]
  | ask request refused next ih =>
    intro made member
    simp only [Program.requests] at member
    rcases List.mem_cons.mp member with rfl | member
    · exact asks.1
    · split at member
      · exact ih _ (asks.2 _) _ made member
      · simp at member

end Asks

end Program

/-- A query that looks up none but the given entities. -/
def Query.Looks (entities : Declaration → Prop) : Query → Prop
  | .find kind iri => entities ⟨kind, iri⟩
  | _ => True

/-- A reading that looks up none but the given entities, whatever it meets. -/
def LooksUp {α : Type} (entities : Declaration → Prop) (reading : Reading α) : Prop :=
  reading.Asks (Query.Looks entities)

namespace LooksUp

open Reading Grammar

variable {α : Type} {entities : Declaration → Prop}

/-! ## Leaves look nothing up -/

theorem token : LooksUp entities token := ⟨trivial, fun _ => trivial⟩

theorem peek : LooksUp entities peek := ⟨trivial, fun _ => trivial⟩

theorem unscan : LooksUp entities unscan := ⟨trivial, fun _ => trivial⟩

theorem here : LooksUp entities here := ⟨trivial, fun _ => trivial⟩

theorem report (event : Event) : LooksUp entities (report event) := ⟨trivial, fun _ => trivial⟩

theorem expect (token : Token) : LooksUp entities (expect token) := by
  refine LooksUp.token.bind fun next => ?_
  split <;> trivial

theorem expectAll (tokens : List Token) : LooksUp entities (expectAll tokens) := by
  induction tokens with
  | nil => trivial
  | cons token tokens ih => exact (expect token).bind fun _ => ih

theorem accept (token : Token) : LooksUp entities (accept token) := by
  refine LooksUp.token.bind fun next => ?_
  split
  · trivial
  · exact unscan.bind fun _ => trivial

theorem limitReached : LooksUp entities (limitReached : Reading α) := here.bind fun _ => trivial

theorem bracketedIri (scanned : Scanned) : LooksUp entities (bracketedIri scanned) := by
  unfold Grammar.bracketedIri
  split
  · trivial
  · exact Program.Asks.bind ⟨trivial, fun _ => trivial⟩ fun _ => trivial

theorem shortName : LooksUp entities shortName := by
  have named (label : String) : LooksUp entities (do
      let next ← Reading.token
      if next.token.isWord then pure (label, next.literal)
      else failOn next (.missing .localName)) := by
    refine token.bind fun next => ?_
    split <;> trivial
  refine token.bind fun first => ?_
  dsimp only
  split
  · exact (expect .colon).bind fun _ => named _
  · exact named _
  · trivial

theorem resolve (scope : Scope) (label name : String) (position : Position) :
    LooksUp entities (resolve scope label name position) := by
  unfold Grammar.resolve
  split
  · trivial
  · exact (report _).bind fun _ => trivial

theorem name (scope : Scope) : LooksUp entities (name scope) := by
  have short (next : Scanned) : LooksUp entities (do
      let found ← Grammar.shortName
      pure (← Grammar.resolve scope found.1 found.2 next.position, next.position)) :=
    shortName.bind fun _ => (resolve ..).bind fun _ => trivial
  refine peek.bind fun next => ?_
  split
  · exact token.bind fun _ => (bracketedIri next).bind fun _ => trivial
  · exact short next
  · exact short next
  · trivial

theorem languageRest (tag : String) (limit : Nat) : LooksUp entities (languageRest tag limit) := by
  induction limit generalizing tag with
  | zero => exact limitReached
  | succ limit ih =>
    refine Program.Asks.bind ⟨trivial, fun _ => trivial⟩ fun found => ?_
    split
    · exact ih _
    · trivial
    · exact Program.Asks.bind ⟨trivial, fun _ => trivial⟩ fun _ => trivial

theorem language (scope : Scope) : LooksUp entities (language scope) := by
  refine (accept .atSign).bind fun accepted => ?_
  split
  · refine token.bind fun first => ?_
    split
    · exact (languageRest _ _).map some
    · trivial
  · trivial

theorem datatypeSuffix (scope : Scope) : LooksUp entities (datatypeSuffix scope) := by
  refine (accept .doubleCaret).bind fun accepted => ?_
  split
  · exact (name scope).bind fun _ => trivial
  · trivial

theorem literal (scope : Scope) : LooksUp entities (literal scope) := by
  refine token.bind fun first => ?_
  split
  · trivial
  · trivial
  · dsimp only
    have silent : LooksUp entities (pure none : Reading (Option String)) := trivial
    -- Only a text can have a language, and a datatype can follow in both cases.
    split
    case' isTrue => refine ((language scope).within _).bind fun _ => ?_
    case' isFalse => refine silent.bind fun _ => ?_
    all_goals
      refine ((datatypeSuffix scope).within _).bind fun suffix => ?_
      split
      · trivial
      · split
        · split <;> trivial
        · trivial

theorem cardinality : LooksUp entities cardinality := by
  refine token.bind fun next => ?_
  split
  · split <;> trivial
  · trivial

theorem declaredKind : LooksUp entities declaredKind := by
  refine token.bind fun next => ?_
  split <;> trivial

theorem enclosed {inside : Reading α} (keyword : Keyword) (within : LooksUp entities inside) :
    LooksUp entities (enclosed keyword inside) :=
  (expectAll _).bind fun _ => within.bind fun _ => (expect _).bind fun _ => trivial

end LooksUp

/-- A construct looks up none but usable names. -/
theorem Composed.looksUp {α : Type} {reading : Reading α} (composed : Composed reading) :
    LooksUp Declaration.Usable reading := by
  induction composed with
  | done value => trivial
  | failed error => trivial
  | bind first next ihFirst ihNext => exact Program.Asks.bind ihFirst ihNext
  | within context inner ih => exact ih.within context
  | peek => exact .peek
  | here => exact .here
  | name scope => exact .name scope
  | shortName => exact .shortName
  | literal scope => exact .literal scope
  | cardinality => exact .cardinality
  | declaredKind => exact .declaredKind
  | find unknown usable => exact ⟨usable, fun _ => trivial⟩
  | enclosed keyword inner ih => exact .enclosed keyword ih
  | parenthesised inner next ihInner ihNext =>
    exact (LooksUp.expect _).bind fun _ => ihInner.bind fun value =>
      (LooksUp.expect _).bind fun _ => ihNext value

/-! ## Documents -/

namespace LooksUp

open Reading Grammar

variable {entities : Declaration → Prop}

theorem boundSpace (first : Scanned) (label : String) :
    LooksUp entities (boundSpace first label) := by
  refine (expectAll _).bind fun _ => token.bind fun next => ?_
  dsimp only
  split
  · exact (bracketedIri next).bind fun _ => trivial
  · trivial

theorem prefixBinding (labels : List String) : LooksUp entities (prefixBinding labels) := by
  refine (enclosed _ (token.bind fun first => ?_)).bind fun parts => ?_
  · dsimp only
    split
    · exact unscan.bind fun _ => boundSpace first _
    · exact boundSpace first _
    · trivial
  · dsimp only
    split
    · trivial
    · exact (report _).bind fun _ => trivial

theorem header (prefixes : Prefixes) : LooksUp entities (header prefixes) := by
  refine ((expectAll _).within _).bind fun _ => token.bind fun first => ?_
  dsimp only
  split
  · refine (bracketedIri first).bind fun iri => peek.bind fun next => ?_
    split
    · exact token.bind fun _ => ((bracketedIri next).map some).bind fun _ =>
        (report _).bind fun _ => trivial
    · exact (report _).bind fun _ => trivial
  · trivial

/-- Before the first statement nothing is looked up. -/
theorem preamble (prefixes : Prefixes) (bound : List String) (limit : Nat) :
    LooksUp entities (preamble prefixes bound limit) := by
  induction limit generalizing prefixes bound with
  | zero => exact limitReached
  | succ limit ih =>
    refine token.bind fun next => ?_
    split
    · exact unscan.bind fun _ => ((prefixBinding bound).within _).bind fun _ => ih _ _
    · exact unscan.bind fun _ => header prefixes
    · trivial
    · trivial

theorem statement? (scope : Scope) : LooksUp Declaration.Usable (statement? scope) := by
  refine token.bind fun next => ?_
  split
  · trivial
  · refine unscan.bind fun _ => ?_
    split
    · exact (Composed.declaration scope).looksUp.map some
    · exact (Composed.assertion scope next).looksUp.map some

theorem ending : LooksUp entities ending := by
  refine token.bind fun next => ?_
  split <;> trivial

end LooksUp

/-! ## Readings that look up nothing -/

section

variable {σ τ α : Type} [Store σ] [Store τ]

theorem Session.answer_elsewhere (checks : Checks) {query : Query}
    (blind : query.Looks fun _ => False) {session : Session σ} {other : Session τ}
    (same : other.stream = session.stream) :
    answer checks query other = ((answer checks query session).1,
      ⟨(answer checks query session).2.stream, other.store⟩) := by
  obtain ⟨stream, store⟩ := other
  obtain rfl : stream = session.stream := same
  cases query with
  | find => exact blind.elim
  | _ => rfl

/-- A reading that looks up nothing does the same over every store, which it leaves as it is. -/
theorem LooksUp.run_elsewhere {reading : Reading α} (blind : LooksUp (fun _ => False) reading)
    (checks : Checks) {session : Session σ} {other : Session τ}
    (same : other.stream = session.stream) :
    reading.run (Session.reader checks) other =
      ((reading.run (Session.reader checks) session).1,
        ⟨(reading.run (Session.reader checks) session).2.stream, other.store⟩) := by
  induction reading generalizing session other with
  | done value => simp only [Program.run, ← same]
  | fail error => simp only [Program.run, ← same]
  | ask query refused next ih =>
    simp only [Program.run, Session.reader, Session.answer_elsewhere checks blind.1 same]
    rcases Session.answer checks query session with ⟨reason | reply, after⟩
    · rfl
    · exact ih reply (blind.2 reply) rfl

theorem Reads.elsewhere {reading : Reading α} (blind : LooksUp (fun _ => False) reading)
    {checks : Checks} {session after : Session σ} {value : α}
    (read : Reads checks reading session value after) {other : Session τ}
    (same : other.stream = session.stream) :
    Reads checks reading other value ⟨after.stream, other.store⟩ := by
  rw [Reads, blind.run_elsewhere checks same, read]

end

/-- A command that looks up none but the given entities. -/
def Command.Looks (entities : Declaration → Prop) : Command → Prop
  | .query asked => asked.Looks entities
  | .declare .. | .add _ => True

theorem LooksUp.writing {α : Type} {entities : Declaration → Prop} {reading : Reading α}
    (looks : LooksUp entities reading) :
    (Writing.ofReading reading).Asks (Command.Looks entities) := by
  induction reading with
  | done value => trivial
  | fail error => trivial
  | ask query refused next ih => exact ⟨looks.1, fun reply => ih reply (looks.2 reply)⟩

theorem body_looks (scope : Scope) (limit : Nat) :
    (Grammar.body scope limit).Asks (Command.Looks Declaration.Usable) := by
  induction limit with
  | zero => exact LooksUp.limitReached.writing
  | succ limit ih =>
    rw [body_succ]
    refine (LooksUp.statement? scope).writing.bind fun found => ?_
    cases found with
    | none => trivial
    | some statement =>
      cases statement <;> exact Program.Asks.bind ⟨trivial, fun _ => trivial⟩ fun _ => ih

namespace Document

theorem statements_look {σ : Type} (ontology : Ontology) (session : Session σ) :
    (statements ontology session).Asks (Command.Looks Declaration.Usable) :=
  (body_looks _ _).bind fun _ => LooksUp.ending.writing

/-- While a document is read none but usable names are looked up, in whatever store. -/
theorem requests_look {σ : Type} [Store σ] (settings : Settings) (session : Session σ) :
    ∀ request ∈ requests settings session, request.1.Looks Declaration.Usable := by
  intro request member
  simp only [requests] at member
  rcases List.mem_append.mp member with early | late
  · obtain ⟨query, made, rfl⟩ := List.mem_map.mp early
    exact (LooksUp.preamble ..).requests _ _ query made
  · split at late
    · simp at late
    · exact (statements_look _ _).requests _ _ request late

end Document

end OwlFunctional
