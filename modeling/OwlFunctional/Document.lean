import OwlFunctional.Catalogue
import OwlFunctional.Grammar.Document

/-! Reading whole documents, and writing what was read as a document again. -/

set_option autoImplicit false

namespace OwlFunctional

structure Settings where
  policy : Policy := .explicit
  strict : Bool := false
  logsTokens : Bool := false
  /-- Labels that are bound before the document is read. -/
  prefixes : Prefixes := .empty

namespace Settings

def bind (settings : Settings) (label space : String) : Except IriError Settings :=
  match Iri.refusal? space with
  | some error => .error error
  | none => .ok { settings with prefixes := settings.prefixes.insert label space }

def checks (settings : Settings) : Checks := if settings.strict then .strict else .lenient

end Settings

structure Outcome (σ : Type) where
  result : Except ReadError Ontology
  /-- The header, if it was read. -/
  ontology : Option Ontology
  session : Session σ

namespace Document

variable {σ : Type} [Store σ]

def prepare (settings : Settings) (session : Session σ) : Session σ :=
  if settings.logsTokens then
    { session with stream := { session.stream with logsTokens := true } }
  else session

omit [Store σ] in
theorem prepare_eq (settings : Settings) (session : Session σ) :
    prepare settings session = { session with stream :=
      { session.stream with logsTokens := settings.logsTokens || session.stream.logsTokens } } := by
  unfold prepare
  cases settings.logsTokens <;> rfl

omit [Store σ] in
@[simp] theorem prepare_store (settings : Settings) (session : Session σ) :
    (prepare settings session).store = session.store := by
  rw [prepare_eq]

omit [Store σ] in
@[simp] theorem prepare_ahead (settings : Settings) (session : Session σ) :
    (prepare settings session).stream.ahead = session.stream.ahead := by
  rw [prepare_eq]

/-- No construct has more parts than there are lexemes, and the end of the input. -/
def limit (session : Session σ) : Nat := session.stream.ahead.length + 1

def preamble (settings : Settings) (session : Session σ) : Reading Ontology :=
  Grammar.preamble settings.prefixes [] (limit session)

def statements (ontology : Ontology) (session : Session σ) : Writing Unit :=
  Grammar.statements ⟨ontology.prefixes, limit session⟩

/-- A fault of the input is told rather than a fault of the document, or a success, that came of
it. -/
def conclude (ontology : Option Ontology) (result : Except SyntaxError Ontology)
    (session : Session σ) : Outcome σ :=
  let (fault, stream) := session.stream.takeFault
  { result := match fault with
      | some fault => .error (.fault fault)
      | none => result.mapError .malformed
    ontology := ontology
    session := { session with stream := stream } }

/-- Reads a document from a stream into a store. -/
def readInto (settings : Settings) (session : Session σ) : Outcome σ :=
  let session := prepare settings session
  match (preamble settings session).run (Session.reader settings.checks) session with
  | (.error error, session) => conclude none (.error error) session
  | (.ok ontology, session) =>
    let (result, session) :=
      (statements ontology session).run (Session.writer settings.checks) session
    conclude (some ontology) (result.map fun _ => ontology) session

def readIntoLog (settings : Settings) (session : Session σ) : Array Event :=
  let session := prepare settings session
  let first := (preamble settings session).log (Session.reader settings.checks) #[] session
  match (preamble settings session).run (Session.reader settings.checks) session with
  | (.error _, _) => first
  | (.ok ontology, middle) =>
    let second := (statements ontology middle).log (Session.writer settings.checks) first middle
    let outcome := readInto settings session
    match outcome.result with
    | .error _ => second
    | .ok ontology =>
      second.push ⟨.debug, .reader, "parsed ontology " ++ ontology.iri.render ++ " from " ++
        session.stream.source ++ " (" ++
        toString (outcome.session.stream.place.line + 1) ++ " lines)"⟩

def opened (settings : Settings) (source : String) (input : Input) : Session Catalogue :=
  ⟨.ofInput source input, .empty settings.policy⟩

def read (settings : Settings) (source : String) (input : Input) : Outcome Catalogue :=
  readInto settings (opened settings source input)

def readLog (settings : Settings) (source : String) (input : Input) : Array Event :=
  let session := opened settings source input
  let outcome := readInto settings session
  let events := readIntoLog settings session
  match outcome.result with
  | .error _ => events
  | .ok ontology =>
    events.push ⟨.debug, .reader, ontology.summary outcome.session.store.render⟩

/-- Writes an ontology as a document: its abbreviations, its header, a declaration of every
entity, and the axioms. -/
def render (ontology : Ontology) (catalogue : Catalogue) : String :=
  let version := match ontology.version with
    | some version => " " ++ version.render
    | none => ""
  let lines := EntityKind.all.flatMap (fun kind => (catalogue.declarations kind).map (·.render)) ++
    catalogue.axioms.toList.map (·.render)
  ontology.prefixes.render ++ "Ontology(" ++ ontology.iri.render ++ version ++ "\n" ++
    lines.foldr (fun line text => line ++ "\n" ++ text) "" ++ ")"

end Document

end OwlFunctional
