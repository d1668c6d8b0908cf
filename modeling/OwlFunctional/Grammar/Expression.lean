import OwlFunctional.Expression
import OwlFunctional.Grammar.Literal

/-! How property expressions, data ranges and class expressions are read. -/

set_option autoImplicit false

namespace OwlFunctional.Grammar

open Reading

def enclosed {α : Type} (keyword : Keyword) (inside : Reading α) : Reading α := do
  expectAll [.keyword keyword, .openParen]
  let value ← inside
  expect .closeParen
  pure value

def objectPropertyWithin (scope : Scope) : Nat → Reading ObjectPropertyExpression
  | 0 => limitReached
  | limit + 1 => do
    let next ← peek
    if next.token = .keyword .objectInverseOf then
      enclosed .objectInverseOf do
        match ← objectPropertyWithin scope limit with
        | .named property => pure (.inverseOf property)
        | _ => failAt (← here) .inverseOfExpression
    else
      let (iri, position) ← name scope
      if iri = Vocabulary.topObjectProperty then pure .top
      else if iri = Vocabulary.bottomObjectProperty then pure .bottom
      else .named <$> declared .objectProperty .property iri position

def objectProperty (scope : Scope) : Reading ObjectPropertyExpression :=
  objectPropertyWithin scope scope.limit

def dataProperty (scope : Scope) : Reading DataPropertyExpression := do
  let (iri, position) ← name scope
  if iri = Vocabulary.topDataProperty then pure .top
  else if iri = Vocabulary.bottomDataProperty then pure .bottom
  else .named <$> declared .dataProperty .property iri position

def datatype (scope : Scope) : Reading Iri := do
  let (iri, position) ← name scope
  if Vocabulary.isBuiltinDatatype iri then pure iri
  else
    let _ ← find .datatype iri (.found position (.unknownDatatype iri))
    pure iri

def facet (scope : Scope) : Reading Facet := do
  let next ← peek
  if next.token.startsName then
    let (iri, position) ← name scope
    match Facet.ofIri? iri with
    | some facet => pure facet
    | none => failAt position (.unknownFacet iri.text)
  else failAt next.position (.unknownFacet next.literal)

/-- Pairs of a facet and a literal, after those read before, given latest first. -/
def facets (scope : Scope) (read : List FacetRestriction) : Nat → Reading (List FacetRestriction)
  | 0 => limitReached
  | limit + 1 => do
    let next ← peek
    if next.token = .closeParen then pure read.reverse
    else
      let pair : Reading FacetRestriction := do
        pure ⟨← facet scope, ← literal scope⟩
      facets scope ((← pair.within (.facetNumber (read.length + 1))) :: read) limit

def checkCount {α : Type} (keyword : Keyword) (least : Nat) (position : Position)
    (operands : List α) : Reading (List α) :=
  if operands.length < least then failAt position (.tooFewOperands operands.length keyword)
  else pure operands

def onlyOperand {α : Type} (keyword : Keyword) (position : Position) (operands : List α) :
    Reading α :=
  match operands with
  | [operand] => pure operand
  | _ => failAt position (.wrongOperandCount operands.length keyword 1)

def dataRangeWithin (scope : Scope) : Nat → Reading DataRange
  | 0 => limitReached
  | limit + 1 => do
    let next ← peek
    match next.token with
    | .iri | .word | .colon => do
      let iri ← (datatype scope).within .namedDatatype
      pure (if Vocabulary.isBuiltinDatatype iri then .builtin iri else .named ⟨iri⟩)
    | .keyword .datatypeRestriction => do
      let (iri, restrictions) ← enclosed .datatypeRestriction do
        let iri ← (datatype scope).within .namedDatatype
        pure (iri, ← facets scope [] scope.limit)
      let restrictions ← checkCount .datatypeRestriction 1 next.position restrictions
      pure (.restriction iri restrictions)
    | .keyword (.dataJunction joined) => do
      let operands ← enclosed (.dataJunction joined)
        (untilClose (dataRangeWithin scope limit) [] scope.limit)
      .junction joined <$> checkCount (.dataJunction joined) 2 next.position operands
    | .keyword .dataComplementOf => do
      let operands ← enclosed .dataComplementOf
        (untilClose (dataRangeWithin scope limit) [] scope.limit)
      .complementOf <$> onlyOperand .dataComplementOf next.position operands
    | .keyword .dataOneOf => do
      let values ← enclosed .dataOneOf (untilClose (literal scope) [] scope.limit)
      .oneOf <$> checkCount .dataOneOf 1 next.position values
    | _ => failOn next (.needed .dataRange)

def dataRange (scope : Scope) : Reading DataRange := dataRangeWithin scope scope.limit

def cardinality : Reading UInt32 := do
  let next ← token
  if next.token = .integer then
    match Text.cardinality? next.literal.toList with
    | some count => pure count
    | none => failAt next.position (.noCardinality next.literal)
  else failAt next.position (.noInteger next.literal)

/-- An operand that may be left out before a closing parenthesis. -/
def optionalOperand {α : Type} (operand : Reading α) : Reading (Option α) := do
  let next ← peek
  if next.token = .closeParen then pure none else some <$> operand

def namedClass (scope : Scope) : Reading ClassExpression := do
  let (iri, position) ← name scope
  if iri = Vocabulary.thing then pure .thing
  else if iri = Vocabulary.nothing then pure .nothing
  else .named <$> declared .owlClass .name iri position

def classExpressionWithin (scope : Scope) : Nat → Reading ClassExpression
  | 0 => limitReached
  | limit + 1 => do
    let next ← peek
    match next.token with
    | .iri | .word | .colon => namedClass scope
    | .keyword (.objectJunction joined) => do
      let operands ← enclosed (.objectJunction joined)
        (untilClose (classExpressionWithin scope limit) [] scope.limit)
      .junction joined <$> checkCount (.objectJunction joined) 2 next.position operands
    | .keyword .objectComplementOf => do
      let operands ← enclosed .objectComplementOf
        (untilClose (classExpressionWithin scope limit) [] scope.limit)
      .complementOf <$> onlyOperand .objectComplementOf next.position operands
    | .keyword .objectOneOf => do
      let individuals ← enclosed .objectOneOf (untilClose (individual scope) [] scope.limit)
      .oneOf <$> checkCount .objectOneOf 1 next.position individuals
    | .keyword (.objectQuantifier quantifier) =>
      enclosed (.objectQuantifier quantifier) do
        pure (.objectQuantified quantifier (← objectProperty scope)
          (← classExpressionWithin scope limit))
    | .keyword .objectHasValue =>
      enclosed .objectHasValue do
        pure (.objectHasValue (← objectProperty scope) (← individual scope))
    | .keyword .objectHasSelf =>
      enclosed .objectHasSelf do
        pure (.objectHasSelf (← objectProperty scope))
    | .keyword (.objectCardinality bound) =>
      enclosed (.objectCardinality bound) do
        let count ← cardinality
        let property ← objectProperty scope
        match ← optionalOperand (classExpressionWithin scope limit) with
        | none => pure (.objectCardinality bound count property)
        | some filler => pure (.objectQualified bound count property filler)
    | .keyword (.dataQuantifier quantifier) =>
      enclosed (.dataQuantifier quantifier) do
        pure (.dataQuantified quantifier (← dataProperty scope) (← dataRange scope))
    | .keyword .dataHasValue =>
      enclosed .dataHasValue do
        pure (.dataHasValue
          (← (dataProperty scope).within (.namedOperand "R" .dataHasValue))
          (← (literal scope).within (.namedOperand "v" .dataHasValue)))
    | .keyword (.dataCardinality bound) =>
      enclosed (.dataCardinality bound) do
        let count ← cardinality
        let property ← dataProperty scope
        let range := (dataRange scope).within (.namedOperand "D" (.dataCardinality bound))
        match ← optionalOperand range with
        | none => pure (.dataCardinality bound count property)
        | some range => pure (.dataQualified bound count property range)
    | _ => failOn next (.needed .classExpression)

def classExpression (scope : Scope) : Reading ClassExpression :=
  classExpressionWithin scope scope.limit

end OwlFunctional.Grammar
