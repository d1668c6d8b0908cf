import OwlFunctional.Grammar.Document
import OwlFunctional.Proofs.Spelling

/-! The grammar of annotations, axioms, statements and documents. -/

set_option autoImplicit false

namespace OwlFunctional

def Prefixes.override (prefixes : Prefixes) (bindings : List Binding) : Prefixes :=
  bindings.foldl (fun table binding => table.insert binding.label binding.space) prefixes

namespace Spelling

/-! ## Annotations -/

inductive AnnotationSubject (prefixes : Prefixes) :
    OwlFunctional.AnnotationSubject → List Lexeme → List Lexeme → Prop where
  | iri {name : Iri} {input rest : List Lexeme} : Name (globally prefixes) name input rest →
      AnnotationSubject prefixes (.iri name) input rest
  | anonymous {label : BlankLabel} {input rest : List Lexeme} :
      ShortName Grammar.anonymousMark label.text input rest →
      AnnotationSubject prefixes (.anonymous label) input rest

inductive AnnotationValue (prefixes : Prefixes) :
    OwlFunctional.AnnotationValue → List Lexeme → List Lexeme → Prop where
  | iri {name : Iri} {input rest : List Lexeme} : Name (globally prefixes) name input rest →
      AnnotationValue prefixes (.iri name) input rest
  | anonymous {label : BlankLabel} {input rest : List Lexeme} :
      ShortName Grammar.anonymousMark label.text input rest →
      AnnotationValue prefixes (.anonymous label) input rest
  | literal {content : OwlFunctional.Literal} {input rest : List Lexeme} :
      Literal prefixes content input rest → AnnotationValue prefixes (.literal content) input rest

def Note (prefixes : Prefixes) (note : Annotation)
    (input rest : List Lexeme) : Prop :=
  ∃ first second third, Opens .annotationTerm input first ∧
    Name prefixes.resolve? note.property.iri first second ∧
    AnnotationValue prefixes note.value second third ∧ Closes third rest

/-! ## Statements -/

inductive Operands (prefixes : Prefixes) : Axiom → List Lexeme → List Lexeme → Prop where
  | subClassOf {sub super : ClassExpression} {input middle rest : List Lexeme} :
      Class prefixes sub input middle → Class prefixes super middle rest →
      Operands prefixes (.subClassOf sub super) input rest
  | equivalentClasses {classes : List ClassExpression} {input rest : List Lexeme} :
      Sequence (Class prefixes) classes input rest → 2 ≤ classes.length →
      Operands prefixes (.equivalentClasses classes) input rest
  | disjointClasses {classes : List ClassExpression} {input rest : List Lexeme} :
      Sequence (Class prefixes) classes input rest → 2 ≤ classes.length →
      Operands prefixes (.disjointClasses classes) input rest
  | subObjectPropertyOf {sub super : ObjectPropertyExpression} {input middle rest : List Lexeme} :
      ObjectProperty prefixes sub input middle → ObjectProperty prefixes super middle rest →
      Operands prefixes (.subObjectPropertyOf sub super) input rest
  | inverseObjectProperties {one other : ObjectPropertyExpression}
      {input middle rest : List Lexeme} :
      ObjectProperty prefixes one input middle → ObjectProperty prefixes other middle rest →
      Operands prefixes (.inverseObjectProperties one other) input rest
  | objectPropertyDomain {property : ObjectPropertyExpression} {domain : ClassExpression}
      {input middle rest : List Lexeme} :
      ObjectProperty prefixes property input middle → Class prefixes domain middle rest →
      Operands prefixes (.objectPropertyDomain property domain) input rest
  | objectPropertyRange {property : ObjectPropertyExpression} {range : ClassExpression}
      {input middle rest : List Lexeme} :
      ObjectProperty prefixes property input middle → Class prefixes range middle rest →
      Operands prefixes (.objectPropertyRange property range) input rest
  | objectCharacteristic {characteristic : ObjectCharacteristic}
      {property : ObjectPropertyExpression} {input rest : List Lexeme} :
      ObjectProperty prefixes property input rest →
      Operands prefixes (.objectCharacteristic characteristic property) input rest
  | subDataPropertyOf {sub super : DataPropertyExpression} {input middle rest : List Lexeme} :
      DataProperty prefixes sub input middle → DataProperty prefixes super middle rest →
      Operands prefixes (.subDataPropertyOf sub super) input rest
  | dataPropertyDomain {property : DataPropertyExpression} {domain : ClassExpression}
      {input middle rest : List Lexeme} :
      DataProperty prefixes property input middle → Class prefixes domain middle rest →
      Operands prefixes (.dataPropertyDomain property domain) input rest
  | dataPropertyRange {property : DataPropertyExpression} {range : OwlFunctional.DataRange}
      {input middle rest : List Lexeme} :
      DataProperty prefixes property input middle → DataRange prefixes range middle rest →
      Operands prefixes (.dataPropertyRange property range) input rest
  | functionalDataProperty {property : DataPropertyExpression} {input rest : List Lexeme} :
      DataProperty prefixes property input rest →
      Operands prefixes (.functionalDataProperty property) input rest
  | classAssertion {expression : ClassExpression} {individual : OwlFunctional.Individual}
      {input middle rest : List Lexeme} :
      Class prefixes expression input middle → Individual prefixes individual middle rest →
      Operands prefixes (.classAssertion expression individual) input rest
  | objectPropertyAssertion {property : ObjectPropertyExpression}
      {source target : OwlFunctional.Individual} {input first second rest : List Lexeme} :
      ObjectProperty prefixes property input first → Individual prefixes source first second →
      Individual prefixes target second rest →
      Operands prefixes (.objectPropertyAssertion property source target) input rest
  | negativeObjectPropertyAssertion {property : ObjectPropertyExpression}
      {source target : OwlFunctional.Individual} {input first second rest : List Lexeme} :
      ObjectProperty prefixes property input first → Individual prefixes source first second →
      Individual prefixes target second rest →
      Operands prefixes (.negativeObjectPropertyAssertion property source target) input rest
  | dataPropertyAssertion {property : DataPropertyExpression} {source : OwlFunctional.Individual}
      {target : OwlFunctional.Literal} {input first second rest : List Lexeme} :
      DataProperty prefixes property input first → Individual prefixes source first second →
      Literal prefixes target second rest →
      Operands prefixes (.dataPropertyAssertion property source target) input rest
  | differentIndividuals {individuals : List OwlFunctional.Individual} {input rest : List Lexeme} :
      Sequence (Individual prefixes) individuals input rest → 2 ≤ individuals.length →
      Operands prefixes (.differentIndividuals individuals) input rest
  | annotationAssertion {property : Entity .annotationProperty}
      {subject : OwlFunctional.AnnotationSubject} {value : OwlFunctional.AnnotationValue}
      {input first second rest : List Lexeme} :
      Name prefixes.resolve? property.iri input first →
      AnnotationSubject prefixes subject first second →
      AnnotationValue prefixes value second rest →
      Operands prefixes (.annotationAssertion property subject value) input rest
  | annotationPropertyDomain {property : Entity .annotationProperty} {domain : Iri}
      {input middle rest : List Lexeme} :
      Name prefixes.resolve? property.iri input middle →
      Name prefixes.resolve? domain middle rest →
      Operands prefixes (.annotationPropertyDomain property domain) input rest
  | annotationPropertyRange {property : Entity .annotationProperty} {range : Iri}
      {input middle rest : List Lexeme} :
      Name prefixes.resolve? property.iri input middle →
      Name prefixes.resolve? range middle rest →
      Operands prefixes (.annotationPropertyRange property range) input rest

/-- A statement. Where the name of a declared entity stands is not part of what is spelled. -/
inductive Sentence (prefixes : Prefixes) : Statement → List Lexeme → List Lexeme → Prop where
  | declaration {declared : Declaration} {notes : List Annotation}
      {position : Position} {input first second third fourth fifth rest : List Lexeme} :
      Opens .declaration input first → Sequence (Note prefixes) notes first second →
      Opens (.entity declared.kind) second third →
      Name prefixes.resolve? declared.iri third fourth → Closes fourth fifth → Closes fifth rest →
      Sentence prefixes (.declaration declared notes position) input rest
  | assertion {statement : Axiom} {notes : List Annotation}
      {input first second third rest : List Lexeme} :
      Opens statement.keyword input first → Sequence (Note prefixes) notes first second →
      Operands prefixes statement second third → Closes third rest →
      Sentence prefixes (.assertion ⟨statement, notes⟩) input rest

/-! ## Documents -/

inductive Label : String → List Lexeme → List Lexeme → Prop where
  | empty {input : List Lexeme} : Label "" input input
  | word {label : String} {input rest : List Lexeme} : Takes ⟨.word, label⟩ input rest →
      Label label input rest

def Bound (binding : Binding) (input rest : List Lexeme) : Prop :=
  ∃ first second third fourth fifth, Opens .prefixBinding input first ∧
    Label binding.label first second ∧ Mark .colon second third ∧ Mark .equals third fourth ∧
    Takes ⟨.iri, (⟨binding.space⟩ : Iri).render⟩ fourth fifth ∧ Closes fifth rest

def Header (iri : Iri) (version : Option Iri) (input rest : List Lexeme) : Prop :=
  ∃ first second, Opens .ontology input first ∧ Takes ⟨.iri, iri.render⟩ first second ∧
    match version with
    | none => second = rest
    | some version => Takes ⟨.iri, version.render⟩ second rest

/-- A whole document: abbreviations with labels of their own, one ontology, and nothing after it
but trivia. -/
structure Document (prefixes : Prefixes) (bindings : List Binding) (ontology : Ontology)
    (statements : List Statement) (input : List Lexeme) : Prop where
  distinct : (bindings.map (·.label)).Nodup
  prefixes_eq : ontology.prefixes = prefixes.override bindings
  spelled : ∃ first second third fourth, Sequence Bound bindings input first ∧
    Header ontology.iri ontology.version first second ∧
    Sequence (Sentence ontology.prefixes) statements second third ∧ Closes third fourth ∧
    significant fourth = []

end Spelling

end OwlFunctional
