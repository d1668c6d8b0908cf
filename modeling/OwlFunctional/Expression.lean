import OwlFunctional.Connective
import OwlFunctional.Entity
import OwlFunctional.Literal
import OwlFunctional.Token

/-! Property expressions, data ranges and class expressions, and how they are written. -/

set_option autoImplicit false

namespace OwlFunctional

def spaced : List String → String
  | [] => ""
  | [text] => text
  | text :: rest => text ++ " " ++ spaced rest

/-- A keyword with its operands in parentheses. -/
def applied (keyword : Keyword) (operands : List String) : String :=
  keyword.text ++ "(" ++ spaced operands ++ ")"

inductive ObjectPropertyExpression where
  | top
  | bottom
  | named (property : Entity .objectProperty)
  | inverseOf (property : Entity .objectProperty)
  deriving DecidableEq, Repr

namespace ObjectPropertyExpression

def render : ObjectPropertyExpression → String
  | top => Vocabulary.topObjectProperty.render
  | bottom => Vocabulary.bottomObjectProperty.render
  | named property => property.render
  | inverseOf property => applied .objectInverseOf [property.render]

end ObjectPropertyExpression

inductive DataPropertyExpression where
  | top
  | bottom
  | named (property : Entity .dataProperty)
  deriving DecidableEq, Repr

namespace DataPropertyExpression

def render : DataPropertyExpression → String
  | top => Vocabulary.topDataProperty.render
  | bottom => Vocabulary.bottomDataProperty.render
  | named property => property.render

end DataPropertyExpression

structure FacetRestriction where
  facet : Facet
  value : Literal
  deriving DecidableEq, Repr

def FacetRestriction.render (restriction : FacetRestriction) : String :=
  restriction.facet.render ++ " " ++ restriction.value.render

inductive DataRange where
  | builtin (datatype : Iri)
  | named (datatype : Entity .datatype)
  | restriction (datatype : Iri) (restrictions : List FacetRestriction)
  | junction (junction : Junction) (operands : List DataRange)
  | complementOf (operand : DataRange)
  | oneOf (values : List Literal)

namespace DataRange

mutual

def render : DataRange → String
  | builtin datatype => datatype.render
  | named datatype => datatype.render
  | restriction datatype restrictions =>
    applied .datatypeRestriction (datatype.render :: restrictions.map (·.render))
  | junction joined operands => applied (.dataJunction joined) (renderAll operands)
  | complementOf operand => applied .dataComplementOf [render operand]
  | oneOf values => applied .dataOneOf (values.map (·.render))

def renderAll : List DataRange → List String
  | [] => []
  | operand :: rest => render operand :: renderAll rest

end

mutual

def same : DataRange → DataRange → Bool
  | builtin first, builtin second => first = second
  | named first, named second => first = second
  | restriction first facets, restriction second others => first = second ∧ facets = others
  | junction first operands, junction second others =>
    decide (first = second) && sameAll operands others
  | complementOf first, complementOf second => same first second
  | oneOf values, oneOf others => values = others
  | _, _ => false

def sameAll : List DataRange → List DataRange → Bool
  | [], [] => true
  | first :: rest, second :: others => same first second && sameAll rest others
  | _, _ => false

end

mutual

theorem same_iff (first second : DataRange) : same first second = true ↔ first = second := by
  cases first with
  | junction _ operands => cases second <;> simp [same, sameAll_iff operands]
  | complementOf operand => cases second <;> simp [same, same_iff operand]
  | _ => cases second <;> simp [same]

theorem sameAll_iff (first second : List DataRange) :
    sameAll first second = true ↔ first = second := by
  cases first with
  | nil => cases second <;> simp [sameAll]
  | cons operand rest =>
    cases second <;> simp [sameAll, same_iff operand, sameAll_iff rest]

end

instance : DecidableEq DataRange := fun first second =>
  decidable_of_iff _ (same_iff first second)

end DataRange

inductive ClassExpression where
  | thing
  | nothing
  | named (entity : Entity .owlClass)
  | junction (junction : Junction) (operands : List ClassExpression)
  | complementOf (operand : ClassExpression)
  | oneOf (individuals : List Individual)
  | objectQuantified (quantifier : Quantifier) (property : ObjectPropertyExpression)
    (filler : ClassExpression)
  | objectHasValue (property : ObjectPropertyExpression) (individual : Individual)
  | objectHasSelf (property : ObjectPropertyExpression)
  | objectCardinality (bound : Bound) (count : UInt32) (property : ObjectPropertyExpression)
  | objectQualified (bound : Bound) (count : UInt32) (property : ObjectPropertyExpression)
    (filler : ClassExpression)
  | dataQuantified (quantifier : Quantifier) (property : DataPropertyExpression)
    (range : DataRange)
  | dataHasValue (property : DataPropertyExpression) (value : Literal)
  | dataCardinality (bound : Bound) (count : UInt32) (property : DataPropertyExpression)
  | dataQualified (bound : Bound) (count : UInt32) (property : DataPropertyExpression)
    (range : DataRange)

namespace ClassExpression

def asClass? : ClassExpression → Option (Entity .owlClass)
  | named entity => some entity
  | _ => none

/-- The two built-in classes and the declared ones. -/
def isNamed : ClassExpression → Bool
  | thing | nothing | named _ => true
  | _ => false

def renderCount (count : UInt32) : String := toString count.toNat

mutual

def render : ClassExpression → String
  | thing => Vocabulary.thing.render
  | nothing => Vocabulary.nothing.render
  | named entity => entity.render
  | junction joined operands => applied (.objectJunction joined) (renderAll operands)
  | complementOf operand => applied .objectComplementOf [render operand]
  | oneOf individuals => applied .objectOneOf (individuals.map (·.render))
  | objectQuantified quantifier property filler =>
    applied (.objectQuantifier quantifier) [property.render, render filler]
  | objectHasValue property individual =>
    applied .objectHasValue [property.render, individual.render]
  | objectHasSelf property => applied .objectHasSelf [property.render]
  | objectCardinality bound count property =>
    applied (.objectCardinality bound) [renderCount count, property.render]
  | objectQualified bound count property filler =>
    applied (.objectCardinality bound) [renderCount count, property.render, render filler]
  | dataQuantified quantifier property range =>
    applied (.dataQuantifier quantifier) [property.render, range.render]
  | dataHasValue property value => applied .dataHasValue [property.render, value.render]
  | dataCardinality bound count property =>
    applied (.dataCardinality bound) [renderCount count, property.render]
  | dataQualified bound count property range =>
    applied (.dataCardinality bound) [renderCount count, property.render, range.render]

def renderAll : List ClassExpression → List String
  | [] => []
  | operand :: rest => render operand :: renderAll rest

end

mutual

def same : ClassExpression → ClassExpression → Bool
  | thing, thing => true
  | nothing, nothing => true
  | named first, named second => first = second
  | junction first operands, junction second others =>
    decide (first = second) && sameAll operands others
  | complementOf first, complementOf second => same first second
  | oneOf individuals, oneOf others => individuals = others
  | objectQuantified quantifier property filler, objectQuantified quantifier' property' filler' =>
    decide (quantifier = quantifier' ∧ property = property') && same filler filler'
  | objectHasValue property individual, objectHasValue property' individual' =>
    property = property' ∧ individual = individual'
  | objectHasSelf property, objectHasSelf property' => property = property'
  | objectCardinality bound count property, objectCardinality bound' count' property' =>
    bound = bound' ∧ count = count' ∧ property = property'
  | objectQualified bound count property filler, objectQualified bound' count' property' filler' =>
    decide (bound = bound' ∧ count = count' ∧ property = property') && same filler filler'
  | dataQuantified quantifier property range, dataQuantified quantifier' property' range' =>
    quantifier = quantifier' ∧ property = property' ∧ range = range'
  | dataHasValue property value, dataHasValue property' value' =>
    property = property' ∧ value = value'
  | dataCardinality bound count property, dataCardinality bound' count' property' =>
    bound = bound' ∧ count = count' ∧ property = property'
  | dataQualified bound count property range, dataQualified bound' count' property' range' =>
    bound = bound' ∧ count = count' ∧ property = property' ∧ range = range'
  | _, _ => false

def sameAll : List ClassExpression → List ClassExpression → Bool
  | [], [] => true
  | first :: rest, second :: others => same first second && sameAll rest others
  | _, _ => false

end

mutual

theorem same_iff (first second : ClassExpression) : same first second = true ↔ first = second := by
  cases first with
  | junction _ operands => cases second <;> simp [same, sameAll_iff operands]
  | complementOf operand => cases second <;> simp [same, same_iff operand]
  | objectQuantified _ _ filler => cases second <;> simp [same, same_iff filler, and_assoc]
  | objectQualified _ _ _ filler => cases second <;> simp [same, same_iff filler, and_assoc]
  | _ => cases second <;> simp [same]

theorem sameAll_iff (first second : List ClassExpression) :
    sameAll first second = true ↔ first = second := by
  cases first with
  | nil => cases second <;> simp [sameAll]
  | cons operand rest =>
    cases second <;> simp [sameAll, same_iff operand, sameAll_iff rest]

end

instance : DecidableEq ClassExpression := fun first second =>
  decidable_of_iff _ (same_iff first second)

end ClassExpression

end OwlFunctional
