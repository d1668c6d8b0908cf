import OwlFunctional.Program
import OwlFunctional.Store
import OwlFunctional.Stream.Log

/-! The requests of programs that read a document, and their handlers.

A reading only asks: for the next token, or for an entity. A writing can also hand statements to
the store. A reading is a writing that does not, so what only reads is known by its type.
-/

set_option autoImplicit false

namespace OwlFunctional

inductive Query where
  | token
  | peek
  | unscan
  | here
  | subtag
  | find (kind : EntityKind) (iri : Iri)
  | checkIri (text : String)
  | checkTag (tag : String)
  | report (event : Event)

instance : Signature Query where
  Reply
    | .token => Scanned
    | .peek => Scanned
    | .unscan => Unit
    | .here => Position
    | .subtag => Subtag
    | .find kind _ => Entity kind
    | .checkIri _ => Unit
    | .checkTag _ => Unit
    | .report _ => Unit
  Refusal
    | .find .. => Unit
    | .checkIri _ => IriError
    | .checkTag _ => TagError
    | _ => Empty

inductive Command where
  | query (query : Query)
  | declare (declaration : Declaration) (annotations : List Annotation)
  | add (annotated : AnnotatedAxiom)

instance : Signature Command where
  Reply
    | .query query => Signature.Reply query
    | .declare .. => Unit
    | .add _ => Unit
  Refusal
    | .query query => Signature.Refusal query
    | .declare .. => Unit
    | .add _ => Empty

/-- A program that asks and writes nothing. -/
abbrev Reading := Program Query

/-- A program that also writes to the store. -/
abbrev Writing := Program Command

namespace Reading

variable {α : Type}

/-- Reads the next token that is not white space, a line end or a comment. -/
def token : Reading Scanned := .ask .token (fun refusal : Empty => nomatch refusal) .done

def peek : Reading Scanned := .ask .peek (fun refusal : Empty => nomatch refusal) .done

def unscan : Reading Unit := .ask .unscan (fun refusal : Empty => nomatch refusal) .done

def here : Reading Position := .ask .here (fun refusal : Empty => nomatch refusal) .done

def subtag : Reading Subtag := .ask .subtag (fun refusal : Empty => nomatch refusal) .done

def report (event : Event) : Reading Unit :=
  .ask (.report event) (fun refusal : Empty => nomatch refusal) .done

def find (kind : EntityKind) (iri : Iri) (unknown : SyntaxError) : Reading (Entity kind) :=
  .ask (.find kind iri) (fun _ => unknown) .done

def checkIri (text : String) (invalid : IriError → SyntaxError) : Reading Unit :=
  .ask (.checkIri text) invalid .done

def checkTag (tag : String) (invalid : TagError → SyntaxError) : Reading Unit :=
  .ask (.checkTag tag) invalid .done

def failAt (position : Position) (cause : Cause) : Reading α := .fail (.found position cause)

def failOn (scanned : Scanned) (cause : Lexeme → Cause) : Reading α :=
  failAt scanned.position (cause scanned.lexeme)

def expect (token : Token) : Reading Unit := do
  let next ← Reading.token
  if next.token = token then pure () else failOn next (.expected token)

def expectAll : List Token → Reading Unit
  | [] => pure ()
  | token :: rest => do
    expect token
    expectAll rest

/-- Reads a token if it is the given one, and tells whether it was. -/
def accept (token : Token) : Reading Bool := do
  let next ← Reading.token
  if next.token = token then pure true
  else do
    unscan
    pure false

/-- Fails where more is nested or repeated than was allowed for. -/
def limitReached : Reading α := do
  failAt (← here) .limitReached

/-- Reads items up to a closing parenthesis, which is not read, after those read before, given
latest first. -/
def untilClose (item : Reading α) (read : List α) : Nat → Reading (List α)
  | 0 => limitReached
  | limit + 1 => do
    let next ← peek
    match next.token with
    | .closeParen => pure read.reverse
    | .eof => failOn (← peek) (.needed .closing)
    | _ => untilClose item ((← item) :: read) limit

end Reading

namespace Writing

variable {α : Type}

def ofReading : Reading α → Writing α
  | .done value => .done value
  | .fail error => .fail error
  | .ask query refused next => .ask (.query query) refused fun reply => ofReading (next reply)

instance : MonadLift Reading Writing where
  monadLift := ofReading

def declare (declaration : Declaration) (annotations : List Annotation) (twice : SyntaxError) :
    Writing Unit :=
  .ask (.declare declaration annotations) (fun _ => twice) .done

def add (annotated : AnnotatedAxiom) : Writing Unit :=
  .ask (.add annotated) (fun refusal : Empty => nomatch refusal) .done

end Writing

structure Checks where
  iri : String → Option IriError
  tag : String → Option TagError

namespace Checks

def lenient : Checks := ⟨fun _ => none, fun _ => none⟩

def strict : Checks := ⟨Iri.refusal?, LanguageTag.refusal?⟩

end Checks

/-- What a document is read from and what it is read into. -/
structure Session (σ : Type) where
  stream : Stream
  store : σ

namespace Session

variable {σ : Type} [Store σ]

def verdict {ε : Type} : Option ε → Except ε Unit
  | none => .ok ()
  | some error => .error error

/-- Answers a query. Only queries for tokens move the cursor, and only a look-up can change the
store. -/
def answer (checks : Checks) : (query : Query) → Session σ →
    Except (Signature.Refusal query) (Signature.Reply query) × Session σ
  | .token, session =>
    let (found, stream) := session.stream.token
    (.ok found, { session with stream := stream })
  | .peek, session =>
    let (found, stream) := session.stream.peek
    (.ok found, { session with stream := stream })
  | .unscan, session => (.ok (), { session with stream := session.stream.unscan })
  | .here, session => (.ok session.stream.position, session)
  | .subtag, session =>
    let (found, stream) := session.stream.subtag
    (.ok found, { session with stream := stream })
  | .find kind iri, session =>
    match Store.find kind iri session.store with
    | (some entity, store) => (.ok entity, { session with store := store })
    | (none, store) => (.error (), { session with store := store })
  | .checkIri text, session => (verdict (checks.iri text), session)
  | .checkTag tag, session => (verdict (checks.tag tag), session)
  | .report _, session => (.ok (), session)

def events (query : Query) (session : Session σ) : List Event :=
  match query with
  | .token => session.stream.tokenEvents
  | .peek => session.stream.peekEvents
  | .unscan => session.stream.unscanEvents
  | .subtag => session.stream.subtagEvents
  | .find kind iri => Store.lookupEvents kind iri session.store
  | .report event => [event]
  | .here | .checkIri _ | .checkTag _ => []

def reader (checks : Checks) : Handler Query (Session σ) where
  answer := answer checks
  events := events

def writer (checks : Checks) : Handler Command (Session σ) where
  answer
    | .query query, session => answer checks query session
    | .declare declaration annotations, session =>
      match Store.declare declaration annotations session.store with
      | (true, store) => (.ok (), { session with store := store })
      | (false, store) => (.error (), { session with store := store })
    | .add annotated, session =>
      (.ok (), { session with store := Store.add annotated session.store })
  events
    | .query query, session => events query session
    | .declare declaration _, session => Store.declareEvents declaration session.store
    | .add _, _ => []

end Session

theorem Writing.run_ofReading {σ α : Type} [Store σ] (checks : Checks) (reading : Reading α)
    (session : Session σ) :
    (Writing.ofReading reading).run (Session.writer checks) session =
      reading.run (Session.reader checks) session := by
  induction reading generalizing session with
  | done value => rfl
  | fail error => rfl
  | ask query refused next ih =>
    simp only [Writing.ofReading, Program.run, Session.writer, Session.reader]
    split
    · exact ih _ _
    · rfl

end OwlFunctional
