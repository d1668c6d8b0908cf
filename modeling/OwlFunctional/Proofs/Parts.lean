import OwlFunctional.Grammar.Document

/-! Parts of constructs that the grammar does not name.

What is shown of a construct is shown of its parts first. The parts are those that several cases of
a construct go on with.
-/

set_option autoImplicit false

namespace OwlFunctional.Grammar

open Reading

def localName (label : String) : Reading (String × String) := do
  let name ← token
  if name.token.isWord then pure (label, name.literal) else failOn name (.missing .localName)

/-- A name that is written with a label, from the given position on. -/
def labelledName (scope : Scope) (position : Position) : Reading (Iri × Position) := do
  let (label, name) ← shortName
  pure (← resolve scope label name position, position)

/-- Something anonymous, or else what has a name. -/
def anonymousOr {α : Type} (make : BlankLabel → α) (named : Reading α) : Reading α := do
  if ← startsAnonymous then pure (make (← anonymous)) else named

def typed (scope : Scope) (position : Position) (kind : LiteralKind) (value : String)
    (language : Option String) : Reading Literal := do
  match ← (datatypeSuffix scope).within .literal with
  | none => pure ⟨value, defaultDatatype kind language, language⟩
  | some datatype =>
    match Vocabulary.datatypeKind? datatype with
    | some expected =>
      if fits kind expected value language then pure ⟨value, datatype, language⟩
      else (failAt position (.literalMismatch datatype) : Reading Literal).within .literal
    | none => pure ⟨value, datatype, language⟩

def facetPair (scope : Scope) : Reading FacetRestriction := do
  pure ⟨← facet scope, ← literal scope⟩

def namedRange (scope : Scope) : Reading DataRange := do
  let iri ← (datatype scope).within .namedDatatype
  pure (if Vocabulary.isBuiltinDatatype iri then .builtin iri else .named ⟨iri⟩)

def boundSpace (first : Scanned) (label : String) : Reading (Scanned × String × Iri) := do
  expectAll [.colon, .equals]
  let next ← token
  let space ← if next.token = .iri then bracketedIri next else failOn next (.missing .boundIri)
  pure (first, label, space)

def announced (prefixes : Prefixes) (iri : Iri) (version : Option Iri) : Reading Ontology := do
  report ⟨.debug, .document, "parsing ontology " ++ iri.render⟩
  pure ⟨iri, version, prefixes⟩

def versioned (prefixes : Prefixes) (iri : Iri) : Reading Ontology := do
  let next ← peek
  let version ← if next.token = .iri then do
      let _ ← token
      some <$> bracketedIri next
    else pure none
  announced prefixes iri version

end OwlFunctional.Grammar
