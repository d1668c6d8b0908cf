import OwlFunctional.Grammar.Statement
import OwlFunctional.Ontology

/-! How a document is read: its abbreviations, the header of its ontology, and the statements. -/

set_option autoImplicit false

namespace OwlFunctional.Grammar

open Reading

def prefixBinding (bound : List String) : Reading Binding := do
  let (first, label, space) ← enclosed .prefixBinding do
    let first ← token
    let label ← match first.token with
      | .colon => do
        unscan
        pure ""
      | .word => pure first.literal
      | _ => failOn first (.missing .boundLabel)
    expectAll [.colon, .equals]
    let next ← token
    let space ← if next.token = .iri then bracketedIri next else failOn next (.missing .boundIri)
    pure (first, label, space)
  if bound.contains label then failAt first.position (.labelBoundTwice label)
  else do
    report ⟨.trace, .document, "prefix " ++ label ++ ": bound to " ++ space.render⟩
    pure ⟨label, space.text⟩

def header (prefixes : Prefixes) : Reading Ontology := do
  (expectAll [.keyword .ontology, .openParen]).within .ontologyElement
  let first ← token
  let iri ← if first.token = .iri then bracketedIri first
    else failAt first.position (.noOntologyIri first.literal)
  let next ← peek
  let version ← if next.token = .iri then do
      let _ ← token
      some <$> bracketedIri next
    else pure none
  report ⟨.debug, .document, "parsing ontology " ++ iri.render⟩
  pure ⟨iri, version, prefixes⟩

/-- Everything up to the first statement. A label can be bound once in a document, but it can
be bound again if it was bound before the document. -/
def preamble (prefixes : Prefixes) (bound : List String) : Nat → Reading Ontology
  | 0 => limitReached
  | limit + 1 => do
    let next ← token
    match next.token with
    | .keyword .prefixBinding => do
      unscan
      let binding ← (prefixBinding bound).within .prefixBinding
      preamble (prefixes.insert binding.label binding.space) (binding.label :: bound) limit
    | .keyword .ontology => do
      unscan
      header prefixes
    | .eof => failAt next.position .noOntology
    | _ => failOn next (.needed .preamble)

def write : Statement → Writing Unit
  | .declaration declaration annotations position =>
    Writing.declare declaration annotations (.found position (.declaredTwice declaration))
  | .assertion annotated => Writing.add annotated

/-- The statements of an ontology, each of them written once it has been read. -/
def body (scope : Scope) : Nat → Writing Unit
  | 0 => (limitReached : Reading Unit)
  | limit + 1 => do
    match ← (statement? scope : Reading (Option Statement)) with
    | none => pure ()
    | some statement => do
      write statement
      body scope limit

def ending : Reading Unit := do
  let next ← token
  if next.token = .eof then pure () else failOn next (.needed .endOfDocument)

def statements (scope : Scope) : Writing Unit := do
  body scope scope.limit
  ending

end OwlFunctional.Grammar
