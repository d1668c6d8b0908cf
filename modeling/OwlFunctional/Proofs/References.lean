import OwlFunctional.Grammar.Statement
import OwlFunctional.Proofs.Growth

/-! The entities that expressions and annotations refer to.

Names that need no declaration are no references, and neither are the datatypes of literals.
-/

set_option autoImplicit false

namespace OwlFunctional

namespace ObjectPropertyExpression

def references : ObjectPropertyExpression → List Declaration
  | top | bottom => []
  | named property | inverseOf property => [⟨.objectProperty, property.iri⟩]

end ObjectPropertyExpression

namespace DataPropertyExpression

def references : DataPropertyExpression → List Declaration
  | top | bottom => []
  | named property => [⟨.dataProperty, property.iri⟩]

end DataPropertyExpression

namespace Individual

def references : Individual → List Declaration
  | named entity => [⟨.namedIndividual, entity.iri⟩]
  | anonymous _ => []

end Individual

namespace DataRange

mutual

def references : DataRange → List Declaration
  | builtin _ => []
  | named datatype => [⟨.datatype, datatype.iri⟩]
  | restriction datatype _ =>
    if Vocabulary.isBuiltinDatatype datatype then [] else [⟨.datatype, datatype⟩]
  | junction _ operands => referencesOfAll operands
  | complementOf operand => references operand
  | oneOf _ => []

def referencesOfAll : List DataRange → List Declaration
  | [] => []
  | operand :: others => references operand ++ referencesOfAll others

end

theorem referencesOfAll_eq (operands : List DataRange) :
    referencesOfAll operands = operands.flatMap references := by
  induction operands with
  | nil => rfl
  | cons operand others ih => rw [referencesOfAll, ih, List.flatMap_cons]

end DataRange

namespace ClassExpression

mutual

def references : ClassExpression → List Declaration
  | thing | nothing => []
  | named entity => [⟨.owlClass, entity.iri⟩]
  | junction _ operands => referencesOfAll operands
  | complementOf operand => references operand
  | oneOf individuals => individuals.flatMap (·.references)
  | objectQuantified _ property filler => property.references ++ references filler
  | objectHasValue property individual => property.references ++ individual.references
  | objectHasSelf property => property.references
  | objectCardinality _ _ property => property.references
  | objectQualified _ _ property filler => property.references ++ references filler
  | dataQuantified _ property range => property.references ++ range.references
  | dataHasValue property _ => property.references
  | dataCardinality _ _ property => property.references
  | dataQualified _ _ property range => property.references ++ range.references

def referencesOfAll : List ClassExpression → List Declaration
  | [] => []
  | operand :: others => references operand ++ referencesOfAll others

end

theorem referencesOfAll_eq (operands : List ClassExpression) :
    referencesOfAll operands = operands.flatMap references := by
  induction operands with
  | nil => rfl
  | cons operand others ih => rw [referencesOfAll, ih, List.flatMap_cons]

end ClassExpression

/-- The built-in annotation properties need no declaration. -/
def annotationReferences (property : Entity .annotationProperty) : List Declaration :=
  if Vocabulary.isBuiltinAnnotationProperty property.iri then []
  else [⟨.annotationProperty, property.iri⟩]

def Annotation.references (note : Annotation) : List Declaration :=
  annotationReferences note.property

def Axiom.references : Axiom → List Declaration
  | .subClassOf sub super => sub.references ++ super.references
  | .equivalentClasses classes | .disjointClasses classes =>
    classes.flatMap ClassExpression.references
  | .subObjectPropertyOf sub super => sub.references ++ super.references
  | .inverseObjectProperties first second => first.references ++ second.references
  | .objectPropertyDomain property domain => property.references ++ domain.references
  | .objectPropertyRange property range => property.references ++ range.references
  | .objectCharacteristic _ property => property.references
  | .subDataPropertyOf sub super => sub.references ++ super.references
  | .dataPropertyDomain property domain => property.references ++ domain.references
  | .dataPropertyRange property range => property.references ++ range.references
  | .functionalDataProperty property => property.references
  | .classAssertion expression individual => expression.references ++ individual.references
  | .objectPropertyAssertion property source target
  | .negativeObjectPropertyAssertion property source target =>
    property.references ++ (source.references ++ target.references)
  | .dataPropertyAssertion property source _ => property.references ++ source.references
  | .differentIndividuals individuals => individuals.flatMap Individual.references
  | .annotationAssertion property _ _ => annotationReferences property
  | .annotationPropertyDomain property _ => annotationReferences property
  | .annotationPropertyRange property _ => annotationReferences property

/-- A declared entity is no reference, but the annotations of its declaration refer to others. -/
def Statement.references : Statement → List Declaration
  | .declaration _ annotations _ => annotations.flatMap Annotation.references
  | .assertion annotated =>
    annotated.annotations.flatMap Annotation.references ++ annotated.statement.references

/-- The names of the language itself are no entities of a document, but as datatypes they are
not told apart. -/
def Declaration.Usable (declaration : Declaration) : Prop :=
  declaration.kind = .datatype ∨ Vocabulary.owlName? declaration.iri = none

namespace Catalogue

def Resolves (catalogue : Catalogue) (declaration : Declaration) : Prop :=
  declaration.Usable ∧ catalogue.Knows declaration

/-- The entity was referred to, or could be, and is listed. -/
def Holds (catalogue : Catalogue) (declaration : Declaration) : Prop :=
  declaration.Usable ∧ catalogue.Lists declaration

theorem Grows.resolves_iff {before after : Catalogue} (grows : before.Grows after)
    (declaration : Declaration) : after.Resolves declaration ↔ before.Resolves declaration :=
  and_congr_right fun _ => grows.knows_iff declaration

theorem Grows.resolves {before after : Catalogue} (grows : before.Grows after)
    {references : List Declaration}
    (resolve : ∀ declaration ∈ references, before.Resolves declaration) :
    ∀ declaration ∈ references, after.Resolves declaration :=
  fun declaration member => (grows.resolves_iff declaration).mpr (resolve declaration member)

theorem Grows.holds {before after : Catalogue} (grows : before.Grows after)
    {references : List Declaration} (held : ∀ declaration ∈ references, before.Holds declaration) :
    ∀ declaration ∈ references, after.Holds declaration :=
  fun declaration member => (held declaration member).imp_right (grows.lists declaration)

theorem Grows.resolves_of_holds {before after : Catalogue} (grows : before.Grows after)
    {declaration : Declaration} (held : after.Holds declaration) : before.Resolves declaration :=
  held.imp_right grows.knows_of_lists

end Catalogue

end OwlFunctional
