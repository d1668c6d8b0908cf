import OwlFunctional.Axiom
import OwlFunctional.Grammar.Expression

/-! How statements are read: declarations and axioms, with their annotations. -/

set_option autoImplicit false

namespace OwlFunctional

inductive Statement where
  /-- A declaration, with the position of the declared name. -/
  | declaration (declaration : Declaration) (annotations : List Annotation) (position : Position)
  | assertion (annotated : AnnotatedAxiom)

namespace Grammar

open Reading

def annotationProperty (scope : Scope) : Reading (Entity .annotationProperty) := do
  let (iri, position) ← name scope
  if Vocabulary.isBuiltinAnnotationProperty iri then pure ⟨iri⟩
  else declared .annotationProperty .property iri position

def annotationSubject (scope : Scope) : Reading AnnotationSubject := do
  if ← startsAnonymous then
    pure (.anonymous (← anonymous))
  else
    let (iri, _) ← (name scope).within .annotationSubject
    pure (.iri iri)

def annotationValue (scope : Scope) : Reading AnnotationValue := do
  let next ← peek
  if next.token.startsLiteral then
    pure (.literal (← literal scope))
  else if ← startsAnonymous then
    pure (.anonymous (← anonymous))
  else
    let (iri, _) ← (name scope).within .annotationValue
    pure (.iri iri)

def singleNote (scope : Scope) : Reading Annotation :=
  enclosed .annotationTerm do
    pure ⟨← (annotationProperty scope).within (.annotationOperand 1 .annotationTerm),
      ← (annotationValue scope).within (.annotationOperand 2 .annotationTerm)⟩

/-- The annotations before the operands of a statement, after those read before, given latest
first. -/
def annotationsAfter (scope : Scope) (read : List Annotation) : Nat → Reading (List Annotation)
  | 0 => limitReached
  | limit + 1 => do
    let next ← peek
    if next.token = .keyword .annotationTerm then
      let note ← (singleNote scope).within (.annotationNumber (read.length + 1))
      annotationsAfter scope (note :: read) limit
    else pure read.reverse

def annotations (scope : Scope) : Reading (List Annotation) := annotationsAfter scope [] scope.limit

def declaredKind : Reading EntityKind := do
  let next ← token
  match next.token with
  | .keyword (.entity kind) => pure kind
  | _ => failOn next (.needed .entityKind)

def declaration (scope : Scope) : Reading Statement :=
  enclosed .declaration do
    let annotations ← annotations scope
    let kind ← declaredKind
    expect .openParen
    let (iri, position) ← name scope
    expect .closeParen
    pure (.declaration ⟨kind, iri⟩ annotations position)

abbrev Counted := Except Cause Axiom

def atLeastTwo {α : Type} (keyword : Keyword) (make : List α → Axiom) (operands : List α) :
    Counted :=
  if operands.length < 2 then .error (.tooFewOperands operands.length keyword)
  else .ok (make operands)

/-- How the operands of an axiom are read, by its keyword. Their number is judged when the axiom
has been read to its end. -/
def operands (scope : Scope) : Keyword → Option (Reading Counted)
  | .subClassOf => some do
    match ← untilClose (classExpression scope) [] scope.limit with
    | [sub, super] => pure (.ok (.subClassOf sub super))
    | classes => pure (.error (.wrongOperandCount classes.length .subClassOf 2))
  | .equivalentClasses => some do
    let classes ← untilClose (classExpression scope) [] scope.limit
    pure (atLeastTwo .equivalentClasses .equivalentClasses classes)
  | .disjointClasses => some do
    let classes ← untilClose (classExpression scope) [] scope.limit
    pure (atLeastTwo .disjointClasses .disjointClasses classes)
  | .subObjectPropertyOf => some do
    pure (.ok (.subObjectPropertyOf (← objectProperty scope) (← objectProperty scope)))
  | .inverseObjectProperties => some do
    pure (.ok (.inverseObjectProperties (← objectProperty scope) (← objectProperty scope)))
  | .objectPropertyDomain => some do
    pure (.ok (.objectPropertyDomain (← objectProperty scope) (← classExpression scope)))
  | .objectPropertyRange => some do
    pure (.ok (.objectPropertyRange (← objectProperty scope) (← classExpression scope)))
  | .objectCharacteristic characteristic => some do
    pure (.ok (.objectCharacteristic characteristic (← objectProperty scope)))
  | .subDataPropertyOf => some do
    pure (.ok (.subDataPropertyOf (← dataProperty scope) (← dataProperty scope)))
  | .dataPropertyDomain => some do
    pure (.ok (.dataPropertyDomain (← dataProperty scope) (← classExpression scope)))
  | .dataPropertyRange => some do
    pure (.ok (.dataPropertyRange (← dataProperty scope) (← dataRange scope)))
  | .functionalDataProperty => some do
    pure (.ok (.functionalDataProperty (← dataProperty scope)))
  | .classAssertion => some do
    pure (.ok (.classAssertion (← classExpression scope) (← individual scope)))
  | .objectPropertyAssertion => some do
    pure (.ok (.objectPropertyAssertion
      (← (objectProperty scope).within (.operand 1 .objectPropertyAssertion))
      (← (individual scope).within (.operand 2 .objectPropertyAssertion))
      (← (individual scope).within (.operand 3 .objectPropertyAssertion))))
  | .negativeObjectPropertyAssertion => some do
    pure (.ok (.negativeObjectPropertyAssertion
      (← (objectProperty scope).within (.operand 1 .negativeObjectPropertyAssertion))
      (← (individual scope).within (.operand 2 .negativeObjectPropertyAssertion))
      (← (individual scope).within (.operand 3 .negativeObjectPropertyAssertion))))
  | .dataPropertyAssertion => some do
    pure (.ok (.dataPropertyAssertion
      (← (dataProperty scope).within (.operand 1 .dataPropertyAssertion))
      (← (individual scope).within (.operand 2 .dataPropertyAssertion))
      (← (literal scope).within (.operand 3 .dataPropertyAssertion))))
  | .differentIndividuals => some do
    let individuals ← untilClose (individual scope) [] scope.limit
    pure (atLeastTwo .differentIndividuals .differentIndividuals individuals)
  | .annotationAssertion => some do
    pure (.ok (.annotationAssertion
      (← (annotationProperty scope).within (.annotationOperand 1 .annotationAssertion))
      (← (annotationSubject scope).within (.annotationOperand 2 .annotationAssertion))
      (← (annotationValue scope).within (.annotationOperand 3 .annotationAssertion))))
  | .annotationPropertyDomain => some do
    let property ← annotationProperty scope
    let (domain, _) ← name scope
    pure (.ok (.annotationPropertyDomain property domain))
  | .annotationPropertyRange => some do
    let property ← annotationProperty scope
    let (range, _) ← name scope
    pure (.ok (.annotationPropertyRange property range))
  | _ => none

def assertion (scope : Scope) (first : Scanned) : Reading Statement :=
  match first.token with
  | .keyword keyword =>
    match operands scope keyword with
    | some operands => do
      let (annotations, counted) ← enclosed keyword do
        pure (← annotations scope, ← operands)
      match counted with
      | .ok statement => pure (.assertion ⟨statement, annotations⟩)
      | .error cause => failAt first.position cause
    | none => failOn first .noStatement
  | _ => failOn first .noStatement

/-- The next statement of an ontology, if its closing parenthesis does not come first. That is
read, too. -/
def statement? (scope : Scope) : Reading (Option Statement) := do
  let next ← token
  if next.token = .closeParen then pure none
  else do
    unscan
    if next.token = .keyword .declaration then some <$> declaration scope
    else some <$> assertion scope next

end Grammar

end OwlFunctional
