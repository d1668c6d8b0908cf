import OwlFunctional.Prefixes
import OwlFunctional.Reading

/-! How identifiers and individuals are read. -/

set_option autoImplicit false

namespace OwlFunctional

structure Scope where
  prefixes : Prefixes
  /-- How much may be nested or repeated. -/
  limit : Nat

namespace Grammar

open Reading

def bracketedIri (scanned : Scanned) : Reading Iri :=
  match Iri.unbracket? scanned.literal with
  | none => failAt scanned.position (.unbracketedIri scanned.literal)
  | some text => do
    checkIri text fun error => .found scanned.position (.invalidIri scanned.literal error)
    pure ⟨text⟩

/-- `label:name` or `:name`. Every word can be a name. -/
def shortName : Reading (String × String) := do
  let first ← token
  let label ← match first.token with
    | .word => do
      expect .colon
      pure first.literal
    | .colon => pure ""
    | _ => failOn first (.missing .shortName)
  let name ← token
  if name.token.isWord then pure (label, name.literal) else failOn name (.missing .localName)

def resolve (scope : Scope) (label name : String) (position : Position) : Reading Iri :=
  match scope.prefixes.resolve? label name with
  | none => failAt position (.unknownLabel label)
  | some iri => do
    report ⟨.trace, .names, "resolved " ++ label ++ ":" ++ name ++ " to " ++ iri.render⟩
    pure iri

def name (scope : Scope) : Reading (Iri × Position) := do
  let next ← peek
  match next.token with
  | .iri => do
    let _ ← token
    pure (← bracketedIri next, next.position)
  | .word | .colon => do
    let (label, name) ← shortName
    pure (← resolve scope label name next.position, next.position)
  | _ => failOn next (.missing .name)

/-- An entity that the document itself declares. The names of the language are not among them. -/
def declared (kind : EntityKind) (term : OwlTerm) (iri : Iri) (position : Position) :
    Reading (Entity kind) :=
  match Vocabulary.owlName? iri with
  | some name => failAt position (.reservedName term name)
  | none => find kind iri (.found position (.unknownEntity kind iri))

/-- The label that is no abbreviation but marks an anonymous individual. -/
def anonymousMark : String := "_"

def startsAnonymous : Reading Bool := do
  let next ← peek
  pure (next.token = .word && next.literal = anonymousMark)

def anonymous : Reading BlankLabel := do
  let (_, label) ← shortName
  match BlankLabel.ofString? label with
  | some label => pure label
  | none => failAt (← here) (.invalidLabel label)

def individual (scope : Scope) : Reading Individual := do
  if ← startsAnonymous then
    pure (.anonymous (← anonymous))
  else
    let (iri, position) ← (name scope).within .individual
    pure (.named (← declared .namedIndividual .name iri position))

end Grammar

end OwlFunctional
