import OwlFunctional.Iri

/-! Names that need no declaration. -/

set_option autoImplicit false

namespace OwlFunctional

/-- The form of the values of a datatype, and of a literal as it is written. -/
inductive LiteralKind where
  | whole
  | decimal
  | text
  deriving DecidableEq, Repr

def LiteralKind.name : LiteralKind → String
  | whole => "integer"
  | decimal => "float"
  | text => "string"

namespace Vocabulary

def owlSpace : String := "http://www.w3.org/2002/07/owl#"
def rdfSpace : String := "http://www.w3.org/1999/02/22-rdf-syntax-ns#"
def rdfsSpace : String := "http://www.w3.org/2000/01/rdf-schema#"
def xsdSpace : String := "http://www.w3.org/2001/XMLSchema#"

def owl (name : String) : Iri := ⟨owlSpace ++ name⟩
def rdf (name : String) : Iri := ⟨rdfSpace ++ name⟩
def rdfs (name : String) : Iri := ⟨rdfsSpace ++ name⟩
def xsd (name : String) : Iri := ⟨xsdSpace ++ name⟩

def thing : Iri := owl "Thing"
def nothing : Iri := owl "Nothing"
def topObjectProperty : Iri := owl "topObjectProperty"
def bottomObjectProperty : Iri := owl "bottomObjectProperty"
def topDataProperty : Iri := owl "topDataProperty"
def bottomDataProperty : Iri := owl "bottomDataProperty"

def langString : Iri := rdf "langString"
def boolean : Iri := xsd "boolean"
def decimal : Iri := xsd "decimal"
def integer : Iri := xsd "integer"
def string : Iri := xsd "string"

/-- The datatypes that need no declaration, with the form of their values. -/
def builtinDatatypes : List (Iri × LiteralKind) := [
  (owl "rational", .decimal),
  (owl "real", .decimal),
  (rdf "PlainLiteral", .text),
  (rdf "XMLLiteral", .text),
  (rdfs "Literal", .text),
  (xsd "anyURI", .text),
  (xsd "base64Binary", .text),
  (boolean, .text),
  (xsd "byte", .whole),
  (xsd "dateTime", .text),
  (xsd "dateTimeStamp", .text),
  (decimal, .decimal),
  (xsd "double", .decimal),
  (xsd "float", .decimal),
  (xsd "hexBinary", .text),
  (xsd "int", .whole),
  (integer, .whole),
  (xsd "long", .whole),
  (xsd "Name", .text),
  (xsd "negativeInteger", .whole),
  (xsd "NMTOKEN", .text),
  (xsd "nonNegativeInteger", .whole),
  (xsd "nonPositiveInteger", .whole),
  (xsd "normalizedString", .text),
  (xsd "positiveInteger", .whole),
  (xsd "short", .whole),
  (string, .text),
  (xsd "token", .text),
  (xsd "unsignedByte", .whole),
  (xsd "unsignedInt", .whole),
  (xsd "unsignedLong", .whole),
  (xsd "unsignedShort", .whole),
  (xsd "language", .text)]

def datatypeKind? (iri : Iri) : Option LiteralKind :=
  (builtinDatatypes.find? fun entry => entry.1 == iri).map (·.2)

def isBuiltinDatatype (iri : Iri) : Bool := (datatypeKind? iri).isSome

def builtinAnnotationProperties : List Iri := [
  rdfs "label", rdfs "comment", rdfs "seeAlso", rdfs "isDefinedBy", owl "deprecated",
  owl "versionInfo", owl "priorVersion", owl "backwardCompatibleWith", owl "incompatibleWith"]

def isBuiltinAnnotationProperty (iri : Iri) : Bool := builtinAnnotationProperties.contains iri

/-- The local name of an identifier that is directly in the namespace of the language. -/
def owlName? (iri : Iri) : Option String :=
  let (space, name) := iri.split
  if space = owlSpace then some name else none

end Vocabulary

inductive Facet where
  | minInclusive
  | maxInclusive
  | minExclusive
  | maxExclusive
  deriving DecidableEq, Repr

namespace Facet

def all : List Facet := [minInclusive, maxInclusive, minExclusive, maxExclusive]

def iri : Facet → Iri
  | minInclusive => Vocabulary.xsd "minInclusive"
  | maxInclusive => Vocabulary.xsd "maxInclusive"
  | minExclusive => Vocabulary.xsd "minExclusive"
  | maxExclusive => Vocabulary.xsd "maxExclusive"

def render (facet : Facet) : String := facet.iri.render

def ofIri? (name : Iri) : Option Facet := all.find? fun facet => facet.iri == name

end Facet

end OwlFunctional
