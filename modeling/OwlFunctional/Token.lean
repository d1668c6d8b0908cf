import OwlFunctional.Connective
import OwlFunctional.Entity

/-! Tokens of the functional-style syntax and the table of its keywords. -/

set_option autoImplicit false

namespace OwlFunctional

/-- A word with a meaning of its own. Words of one role share a constructor. -/
inductive Keyword where
  | annotationTerm
  | annotationAssertion
  | annotationPropertyDomain
  | annotationPropertyRange
  | classAssertion
  | dataCardinality (bound : Bound)
  | dataComplementOf
  | dataHasValue
  | dataJunction (junction : Junction)
  | dataOneOf
  | dataPropertyAssertion
  | dataPropertyDomain
  | dataPropertyRange
  | dataQuantifier (quantifier : Quantifier)
  | datatypeRestriction
  | declaration
  | differentIndividuals
  | disjointClasses
  | entity (kind : EntityKind)
  | equivalentClasses
  | functionalDataProperty
  | inverseObjectProperties
  | negativeObjectPropertyAssertion
  | objectCardinality (bound : Bound)
  | objectCharacteristic (characteristic : ObjectCharacteristic)
  | objectComplementOf
  | objectHasSelf
  | objectHasValue
  | objectInverseOf
  | objectJunction (junction : Junction)
  | objectOneOf
  | objectPropertyAssertion
  | objectPropertyDomain
  | objectPropertyRange
  | objectQuantifier (quantifier : Quantifier)
  | ontology
  | prefixBinding
  | subClassOf
  | subDataPropertyOf
  | subObjectPropertyOf
  deriving DecidableEq, Repr

namespace Keyword

def text : Keyword → String
  | annotationTerm => "Annotation"
  | annotationAssertion => "AnnotationAssertion"
  | annotationPropertyDomain => "AnnotationPropertyDomain"
  | annotationPropertyRange => "AnnotationPropertyRange"
  | classAssertion => "ClassAssertion"
  | dataCardinality .min => "DataMinCardinality"
  | dataCardinality .max => "DataMaxCardinality"
  | dataCardinality .exact => "DataExactCardinality"
  | dataComplementOf => "DataComplementOf"
  | dataHasValue => "DataHasValue"
  | dataJunction .intersection => "DataIntersectionOf"
  | dataJunction .union => "DataUnionOf"
  | dataOneOf => "DataOneOf"
  | dataPropertyAssertion => "DataPropertyAssertion"
  | dataPropertyDomain => "DataPropertyDomain"
  | dataPropertyRange => "DataPropertyRange"
  | dataQuantifier .some => "DataSomeValuesFrom"
  | dataQuantifier .all => "DataAllValuesFrom"
  | datatypeRestriction => "DatatypeRestriction"
  | declaration => "Declaration"
  | differentIndividuals => "DifferentIndividuals"
  | disjointClasses => "DisjointClasses"
  | entity kind => kind.name
  | equivalentClasses => "EquivalentClasses"
  | functionalDataProperty => "FunctionalDataProperty"
  | inverseObjectProperties => "InverseObjectProperties"
  | negativeObjectPropertyAssertion => "NegativeObjectPropertyAssertion"
  | objectCardinality .min => "ObjectMinCardinality"
  | objectCardinality .max => "ObjectMaxCardinality"
  | objectCardinality .exact => "ObjectExactCardinality"
  | objectCharacteristic .functional => "FunctionalObjectProperty"
  | objectCharacteristic .inverseFunctional => "InverseFunctionalObjectProperty"
  | objectCharacteristic .reflexive => "ReflexiveObjectProperty"
  | objectCharacteristic .irreflexive => "IrreflexiveObjectProperty"
  | objectCharacteristic .symmetric => "SymmetricObjectProperty"
  | objectCharacteristic .asymmetric => "AsymmetricObjectProperty"
  | objectCharacteristic .transitive => "TransitiveObjectProperty"
  | objectComplementOf => "ObjectComplementOf"
  | objectHasSelf => "ObjectHasSelf"
  | objectHasValue => "ObjectHasValue"
  | objectInverseOf => "ObjectInverseOf"
  | objectJunction .intersection => "ObjectIntersectionOf"
  | objectJunction .union => "ObjectUnionOf"
  | objectOneOf => "ObjectOneOf"
  | objectPropertyAssertion => "ObjectPropertyAssertion"
  | objectPropertyDomain => "ObjectPropertyDomain"
  | objectPropertyRange => "ObjectPropertyRange"
  | objectQuantifier .some => "ObjectSomeValuesFrom"
  | objectQuantifier .all => "ObjectAllValuesFrom"
  | ontology => "Ontology"
  | prefixBinding => "Prefix"
  | subClassOf => "SubClassOf"
  | subDataPropertyOf => "SubDataPropertyOf"
  | subObjectPropertyOf => "SubObjectPropertyOf"

def all : List Keyword :=
  [annotationTerm, annotationAssertion, annotationPropertyDomain, annotationPropertyRange,
    classAssertion, dataCardinality .min, dataCardinality .max, dataCardinality .exact,
    dataComplementOf, dataHasValue, dataJunction .intersection, dataJunction .union, dataOneOf,
    dataPropertyAssertion, dataPropertyDomain, dataPropertyRange, dataQuantifier .some,
    dataQuantifier .all, datatypeRestriction, declaration, differentIndividuals, disjointClasses,
    equivalentClasses, functionalDataProperty, inverseObjectProperties,
    negativeObjectPropertyAssertion, objectCardinality .min, objectCardinality .max,
    objectCardinality .exact, objectComplementOf, objectHasSelf, objectHasValue, objectInverseOf,
    objectJunction .intersection, objectJunction .union, objectOneOf, objectPropertyAssertion,
    objectPropertyDomain, objectPropertyRange, objectQuantifier .some, objectQuantifier .all,
    ontology, prefixBinding, subClassOf, subDataPropertyOf, subObjectPropertyOf] ++
  EntityKind.all.map entity ++ ObjectCharacteristic.all.map objectCharacteristic

theorem mem_all (keyword : Keyword) : keyword ∈ all := by
  rcases keyword with _ | _ | _ | _ | _ | bound | _ | _ | junction | _ | _ | _ | _ | quantifier |
    _ | _ | _ | _ | kind | _ | _ | _ | _ | bound | characteristic | _ | _ | _ | _ | junction | _ |
    _ | _ | _ | quantifier | _ | _ | _ | _ | _
  case dataCardinality => cases bound <;> decide
  case dataJunction => cases junction <;> decide
  case dataQuantifier => cases quantifier <;> decide
  case entity => cases kind <;> decide
  case objectCardinality => cases bound <;> decide
  case objectCharacteristic => cases characteristic <;> decide
  case objectJunction => cases junction <;> decide
  case objectQuantifier => cases quantifier <;> decide
  all_goals decide

def ofText? (word : String) : Option Keyword := all.find? fun keyword => keyword.text == word

theorem text_of_ofText? {word : String} {keyword : Keyword} (found : ofText? word = some keyword) :
    keyword.text = word := by
  simpa using List.find?_some found

end Keyword

inductive Token where
  | illegal
  | eof
  | eol
  | blank
  | doubleCaret
  | boolean (value : Bool)
  | string
  | integer
  | decimal
  | comment
  | iri
  | word
  | atSign
  | colon
  | equals
  | comma
  | openParen
  | closeParen
  | keyword (reserved : Keyword)
  deriving DecidableEq, Repr

namespace Token

def name : Token → String
  | illegal => "ILLEGAL"
  | eof => "EOF"
  | eol => "EOL"
  | blank => "WS"
  | doubleCaret => "DOUBLECIRCUM"
  | boolean true => "true"
  | boolean false => "false"
  | string => "STRINGLIT"
  | integer => "INTLIT"
  | decimal => "FLOATLIT"
  | comment => "LINECOMMENT"
  | iri => "IRI"
  | word => "IDENT"
  | atSign => "AT"
  | colon => "COLON"
  | equals => "EQUALS"
  | comma => "COMMA"
  | openParen => "B1"
  | closeParen => "B2"
  | keyword reserved => reserved.text

def all : List Token :=
  [illegal, eof, eol, blank, doubleCaret, boolean true, boolean false, string, integer, decimal,
    comment, iri, word, atSign, colon, equals, comma, openParen, closeParen] ++
  Keyword.all.map keyword

def ofWord (text : String) : Token :=
  if text = "true" then boolean true
  else if text = "false" then boolean false
  else match Keyword.ofText? text with
    | some reserved => keyword reserved
    | none => word

def ofReserved? (text : String) : Option Token :=
  match ofWord text with
  | word => none
  | reserved => some reserved

/-- White space, line ends and comments separate tokens and mean nothing themselves. -/
def isTrivia : Token → Bool
  | blank | eol | comment => true
  | _ => false

/-- Words, booleans and keywords: each of them can be the local part of a name. -/
def isWord : Token → Bool
  | word | boolean _ | keyword _ => true
  | _ => false

def startsLiteral : Token → Bool
  | string | integer | decimal | boolean _ => true
  | _ => false

def startsName : Token → Bool
  | iri | word | colon => true
  | _ => false

/-- Messages name these tokens without their text. -/
def isSilent : Token → Bool
  | eof | eol | blank | colon | comma | equals | openParen | closeParen => true
  | _ => false

theorem ofWord_isWord (text : String) : (ofWord text).isWord = true := by
  unfold ofWord
  split
  · rfl
  · split
    · rfl
    · split <;> rfl

end Token

end OwlFunctional
