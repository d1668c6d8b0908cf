import OwlFunctional.Iri.Reference
import OwlFunctional.LanguageTag
import OwlFunctional.Stream

/-! Faults of a document, each with the position where it was found.

A fault is a cause inside of the constructs that were being read. All wording is here.
-/

set_option autoImplicit false

namespace OwlFunctional

inductive Need where
  | preamble
  | endOfDocument
  | entityKind
  | classExpression
  | dataRange
  | closing
  deriving DecidableEq, Repr

def Need.text : Need → String
  | preamble => "Prefix or Ontology"
  | endOfDocument => "end of document"
  | entityKind => "entity kind in Declaration"
  | classExpression => "class expression"
  | dataRange => "data range"
  | closing => "B2"

/-- What a message says after a description of the token that was found. -/
inductive Missing where
  | name
  | shortName
  | localName
  | boundLabel
  | boundIri
  | literal
  deriving DecidableEq, Repr

def Missing.text : Missing → String
  | name => ", need IRI, or prefixed name"
  | shortName => ", need prefixed name"
  | localName => ", need identifier in prefixed name"
  | boundLabel => " when parsing prefix, need IDENT"
  | boundIri => " when parsing prefix, need IRI"
  | literal => " when parsing literal"

def EntityKind.role : EntityKind → String
  | annotationProperty => "annotation property"
  | owlClass => "class expression"
  | dataProperty => "datatype property"
  | datatype => "datatype"
  | namedIndividual => "named individual"
  | objectProperty => "object property name"

inductive OwlTerm where
  | name
  | property
  deriving DecidableEq, Repr

def OwlTerm.text : OwlTerm → String
  | name => "name"
  | property => "property"

inductive Cause where
  | expected (token : Token) (found : Lexeme)
  | needed (need : Need) (found : Lexeme)
  | missing (what : Missing) (found : Lexeme)
  | unknownLabel (label : String)
  | unbracketedIri (literal : String)
  | invalidIri (literal : String) (error : IriError)
  | invalidLabel (label : String)
  | noSubtag (found : Lexeme)
  | invalidTag (tag : String) (error : TagError)
  | reservedName (term : OwlTerm) (name : String)
  | unknownEntity (kind : EntityKind) (iri : Iri)
  | unknownDatatype (iri : Iri)
  | unknownFacet (text : String)
  | literalMismatch (datatype : Iri)
  | inverseOfExpression
  | tooFewOperands (count : Nat) (keyword : Keyword)
  | wrongOperandCount (count : Nat) (keyword : Keyword) (right : Nat)
  | noInteger (literal : String)
  | noCardinality (literal : String)
  | noOntologyIri (literal : String)
  | noOntology
  | labelBoundTwice (label : String)
  | declaredTwice (declaration : Declaration)
  | noStatement (found : Lexeme)
  /-- More was nested or repeated than the reader was told to expect. A reader that expects as
  much as there are lexemes never meets it. -/
  | limitReached
  deriving DecidableEq, Repr

namespace Cause

def found (lexeme : Lexeme) : String :=
  if lexeme.literal.isEmpty then lexeme.token.name else lexeme.literal

def message : Cause → String
  | expected token lexeme => "expected token \"" ++ token.name ++ "\", found " ++ found lexeme
  | needed need lexeme =>
    "unexpected " ++ lexeme.token.name ++ "(literal=" ++ lexeme.literal ++ "), need " ++ need.text
  | missing what lexeme => "unexpected " ++ lexeme.brief ++ what.text
  | unknownLabel label => "unknown prefix " ++ label
  | unbracketedIri literal =>
    "expected IRI, but missing < and > on the ends (found:" ++ literal ++ ")"
  | invalidIri literal error => "invalid IRI " ++ literal ++ ": " ++ error.message
  | invalidLabel label =>
    "invalid anonymous individual _:" ++ label ++ ": " ++ BlankLabel.invalidMessage
  | noSubtag lexeme => "expected langtag, not " ++ lexeme.brief
  | invalidTag tag error => "invalid langtag " ++ tag ++ ": " ++ error.message
  | reservedName term name => "unexpected OWL " ++ term.text ++ " \"" ++ name ++ "\""
  | unknownEntity kind iri =>
    "Unknown ref to " ++ iri.render ++ ". Expected " ++ kind.role ++ "."
  | unknownDatatype iri => "unknown datatype literal (" ++ iri.text ++ ")"
  | unknownFacet text => "expected known facet, found " ++ text ++ "."
  | literalMismatch datatype => "literal type mismatch with value (" ++ datatype.render ++ ")"
  | inverseOfExpression => "ObjectInverseOf needs a named object property"
  | tooFewOperands count keyword =>
    "not enough params (" ++ toString count ++ ") in " ++ keyword.text
  | wrongOperandCount count keyword right =>
    "wrong param count (" ++ toString count ++ ") in " ++ keyword.text ++ ", expected " ++
      toString right
  | noInteger literal => "int literal needed, found " ++ literal
  | noCardinality literal => "nonnegative integer needed, found " ++ literal
  | noOntologyIri literal =>
    "IRI as name after Ontology declaration expected, found:" ++ literal
  | noOntology => "missing Ontology"
  | labelBoundTwice label => "second occurrence of prefix \"" ++ label ++ "\""
  | declaredTwice declaration =>
    "second declaration of " ++ declaration.kind.name ++ " " ++ declaration.iri.render
  | noStatement lexeme =>
    "unexpected ontology token " ++ lexeme.token.name ++ " (\"" ++ lexeme.literal ++ "\")"
  | limitReached => "too many nested constructs"

end Cause

inductive Context where
  | prefixBinding
  | ontologyElement
  | individual
  | literal
  | namedDatatype
  | annotationSubject
  | annotationValue
  | annotationNumber (number : Nat)
  | facetNumber (number : Nat)
  | operand (number : Nat) (keyword : Keyword)
  | annotationOperand (number : Nat) (keyword : Keyword)
  /-- An operand with the name that the grammar gives it. -/
  | namedOperand (name : String) (keyword : Keyword)
  | custom (words : String)
  deriving DecidableEq, Repr

namespace Context

/-- `1st`, `2nd`, `3rd`, and `4th` and so on. -/
def shortOrdinal : Nat → String
  | 1 => "1st"
  | 2 => "2nd"
  | 3 => "3rd"
  | number => toString number ++ "th"

/-- `first`, `second`, `third`, and `4th` and so on. -/
def ordinal : Nat → String
  | 1 => "first"
  | 2 => "second"
  | 3 => "third"
  | number => toString number ++ "th"

def message : Context → String
  | prefixBinding => "parsing Prefix"
  | ontologyElement => "parsing Ontology element"
  | individual => "parsing individual"
  | literal => "parsing literal"
  | namedDatatype => "parsing named datatype"
  | annotationSubject => "expected IRI or anonymous individual"
  | annotationValue => "expected IRI, anonymous individual or literal"
  | annotationNumber number => "parsing " ++ toString number ++ ". Annotation"
  | facetNumber number => "parsing " ++ ordinal number ++ " (facet,literal) pair"
  | operand number keyword => shortOrdinal number ++ " param in " ++ keyword.text
  | annotationOperand number keyword =>
    "reading " ++ shortOrdinal number ++ " param in " ++ keyword.text
  | namedOperand name keyword => "parsing " ++ name ++ " in " ++ keyword.text
  | custom words => words

end Context

structure SyntaxError where
  cause : Cause
  /-- The enclosing constructs, outermost first. -/
  contexts : List Context
  position : Position
  deriving DecidableEq, Repr

namespace SyntaxError

def found (position : Position) (cause : Cause) : SyntaxError := ⟨cause, [], position⟩

def within (error : SyntaxError) (context : Context) : SyntaxError :=
  { error with contexts := context :: error.contexts }

def message (error : SyntaxError) : String :=
  error.contexts.foldr (fun context text => context.message ++ ":" ++ text) error.cause.message

def render (error : SyntaxError) : String :=
  error.message ++ " in: " ++ error.position.render ++ " " ++ error.position.context

end SyntaxError

inductive ReadError where
  | fault (fault : Fault)
  | malformed (error : SyntaxError)
  deriving DecidableEq, Repr

namespace ReadError

def render : ReadError → String
  | fault found => found.text
  | malformed error => error.render

/-- Only a fault of the document is inside of a construct. -/
def within (error : ReadError) (context : Context) : ReadError :=
  match error with
  | fault found => fault found
  | malformed error => malformed (error.within context)

def toFault : ReadError → Fault
  | fault found => found
  | malformed error => ⟨.invalidData, error.render⟩

end ReadError

end OwlFunctional
