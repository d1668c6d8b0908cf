import OwlFunctional.Iri
import OwlFunctional.BlankLabel

/-! Entities of the six kinds that an ontology declares, and individuals. -/

set_option autoImplicit false

namespace OwlFunctional

inductive EntityKind where
  | annotationProperty
  | owlClass
  | dataProperty
  | datatype
  | namedIndividual
  | objectProperty
  deriving DecidableEq, Repr

namespace EntityKind

/-- All kinds, in the alphabetical order of their names. -/
def all : List EntityKind :=
  [annotationProperty, owlClass, dataProperty, datatype, namedIndividual, objectProperty]

theorem mem_all (kind : EntityKind) : kind ∈ all := by cases kind <;> decide

def name : EntityKind → String
  | annotationProperty => "AnnotationProperty"
  | owlClass => "Class"
  | dataProperty => "DataProperty"
  | datatype => "Datatype"
  | namedIndividual => "NamedIndividual"
  | objectProperty => "ObjectProperty"

end EntityKind

structure Entity (kind : EntityKind) where
  iri : Iri
  deriving DecidableEq, Repr

def Entity.render {kind : EntityKind} (entity : Entity kind) : String := entity.iri.render

structure Declaration where
  kind : EntityKind
  iri : Iri
  deriving DecidableEq, Repr

namespace Declaration

def render (declaration : Declaration) : String :=
  "Declaration(" ++ declaration.kind.name ++ "(" ++ declaration.iri.render ++ "))"

def entity? (declaration : Declaration) (kind : EntityKind) : Option (Entity kind) :=
  if declaration.kind = kind then some ⟨declaration.iri⟩ else none

end Declaration

/-- A thing that is spoken about, with a global name or with a label of the document. -/
inductive Individual where
  | named (entity : Entity .namedIndividual)
  | anonymous (label : BlankLabel)
  deriving DecidableEq

def Individual.render : Individual → String
  | named entity => entity.render
  | anonymous label => label.render

end OwlFunctional
