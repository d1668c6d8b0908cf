import OwlFunctional.Expression

/-! Axioms with their annotations, and how they are written. -/

set_option autoImplicit false

namespace OwlFunctional

inductive AnnotationSubject where
  | iri (name : Iri)
  | anonymous (label : BlankLabel)
  deriving DecidableEq

def AnnotationSubject.render : AnnotationSubject → String
  | iri name => name.render
  | anonymous label => label.render

inductive AnnotationValue where
  | iri (name : Iri)
  | anonymous (label : BlankLabel)
  | literal (content : Literal)
  deriving DecidableEq

def AnnotationValue.render : AnnotationValue → String
  | iri name => name.render
  | anonymous label => label.render
  | literal content => content.render

structure Annotation where
  property : Entity .annotationProperty
  value : AnnotationValue
  deriving DecidableEq

namespace Annotation

def render (note : Annotation) : String :=
  applied .annotationTerm [note.property.render, note.value.render]

end Annotation

inductive Axiom where
  | subClassOf (sub super : ClassExpression)
  | equivalentClasses (classes : List ClassExpression)
  | disjointClasses (classes : List ClassExpression)
  | subObjectPropertyOf (sub super : ObjectPropertyExpression)
  | inverseObjectProperties (first second : ObjectPropertyExpression)
  | objectPropertyDomain (property : ObjectPropertyExpression) (domain : ClassExpression)
  | objectPropertyRange (property : ObjectPropertyExpression) (range : ClassExpression)
  | objectCharacteristic (characteristic : ObjectCharacteristic)
    (property : ObjectPropertyExpression)
  | subDataPropertyOf (sub super : DataPropertyExpression)
  | dataPropertyDomain (property : DataPropertyExpression) (domain : ClassExpression)
  | dataPropertyRange (property : DataPropertyExpression) (range : DataRange)
  | functionalDataProperty (property : DataPropertyExpression)
  | classAssertion (expression : ClassExpression) (individual : Individual)
  | objectPropertyAssertion (property : ObjectPropertyExpression) (source target : Individual)
  | negativeObjectPropertyAssertion (property : ObjectPropertyExpression)
    (source target : Individual)
  | dataPropertyAssertion (property : DataPropertyExpression) (source : Individual)
    (target : Literal)
  | differentIndividuals (individuals : List Individual)
  | annotationAssertion (property : Entity .annotationProperty) (subject : AnnotationSubject)
    (value : AnnotationValue)
  | annotationPropertyDomain (property : Entity .annotationProperty) (domain : Iri)
  | annotationPropertyRange (property : Entity .annotationProperty) (range : Iri)
  deriving DecidableEq

namespace Axiom

def keyword : Axiom → Keyword
  | subClassOf .. => .subClassOf
  | equivalentClasses .. => .equivalentClasses
  | disjointClasses .. => .disjointClasses
  | subObjectPropertyOf .. => .subObjectPropertyOf
  | inverseObjectProperties .. => .inverseObjectProperties
  | objectPropertyDomain .. => .objectPropertyDomain
  | objectPropertyRange .. => .objectPropertyRange
  | objectCharacteristic characteristic _ => .objectCharacteristic characteristic
  | subDataPropertyOf .. => .subDataPropertyOf
  | dataPropertyDomain .. => .dataPropertyDomain
  | dataPropertyRange .. => .dataPropertyRange
  | functionalDataProperty .. => .functionalDataProperty
  | classAssertion .. => .classAssertion
  | objectPropertyAssertion .. => .objectPropertyAssertion
  | negativeObjectPropertyAssertion .. => .negativeObjectPropertyAssertion
  | dataPropertyAssertion .. => .dataPropertyAssertion
  | differentIndividuals .. => .differentIndividuals
  | annotationAssertion .. => .annotationAssertion
  | annotationPropertyDomain .. => .annotationPropertyDomain
  | annotationPropertyRange .. => .annotationPropertyRange

def operands : Axiom → List String
  | subClassOf sub super => [sub.render, super.render]
  | equivalentClasses classes => ClassExpression.renderAll classes
  | disjointClasses classes => ClassExpression.renderAll classes
  | subObjectPropertyOf sub super => [sub.render, super.render]
  | inverseObjectProperties first second => [first.render, second.render]
  | objectPropertyDomain property domain => [property.render, domain.render]
  | objectPropertyRange property range => [property.render, range.render]
  | objectCharacteristic _ property => [property.render]
  | subDataPropertyOf sub super => [sub.render, super.render]
  | dataPropertyDomain property domain => [property.render, domain.render]
  | dataPropertyRange property range => [property.render, range.render]
  | functionalDataProperty property => [property.render]
  | classAssertion expression individual => [expression.render, individual.render]
  | objectPropertyAssertion property source target =>
    [property.render, source.render, target.render]
  | negativeObjectPropertyAssertion property source target =>
    [property.render, source.render, target.render]
  | dataPropertyAssertion property source target =>
    [property.render, source.render, target.render]
  | differentIndividuals individuals => individuals.map (·.render)
  | annotationAssertion property subject value =>
    [property.render, subject.render, value.render]
  | annotationPropertyDomain property domain => [property.render, domain.render]
  | annotationPropertyRange property range => [property.render, range.render]

def render (statement : Axiom) : String := applied statement.keyword statement.operands

end Axiom

/-- An axiom with the annotations that stand before its operands. -/
structure AnnotatedAxiom where
  statement : Axiom
  annotations : List Annotation
  deriving DecidableEq

def AnnotatedAxiom.render (annotated : AnnotatedAxiom) : String :=
  applied annotated.statement.keyword
    (annotated.annotations.map (·.render) ++ annotated.statement.operands)

end OwlFunctional
