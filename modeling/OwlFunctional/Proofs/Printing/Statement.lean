import OwlFunctional.Proofs.Printing.Expression
import OwlFunctional.Proofs.Spelling.Document

/-! What was spelled is spelled again by its written form: annotations, declarations and axioms. -/

set_option autoImplicit false

namespace OwlFunctional

open Lexeme

namespace Spelling

variable {input rest : List Lexeme} {prefixes other : Prefixes}

/-! ## Annotations -/

theorem AnnotationSubject.renders {subject : OwlFunctional.AnnotationSubject}
    (spelled : AnnotationSubject prefixes subject input rest) (writable : prefixes.Writable) :
    Renders (AnnotationSubject other subject) subject.render input rest := by
  cases spelled with
  | iri name => exact (name.renders (writesNames_globally writable)).imp .iri
  | anonymous short => exact short.renders_anonymous.imp .anonymous

theorem AnnotationValue.renders {value : OwlFunctional.AnnotationValue}
    (spelled : AnnotationValue prefixes value input rest) (writable : prefixes.Writable) :
    Renders (AnnotationValue other value) value.render input rest := by
  cases spelled with
  | iri name => exact (name.renders (writesNames_globally writable)).imp .iri
  | anonymous short => exact short.renders_anonymous.imp .anonymous
  | literal content => exact (content.renders writable).imp .literal

theorem Note.renders {note : Annotation} (spelled : Note prefixes note input rest)
    (writable : prefixes.Writable) :
    Renders (Note other note) note.render input rest := by
  obtain ⟨_, _, _, opens, name, value, closes⟩ := spelled
  exact .appliedPair opens (name.renders (writesNames_resolve writable)) (value.renders writable)
    closes fun opens name value closes => ⟨_, _, _, opens, name, value, closes⟩

/-! ## Axioms -/

theorem Operands.operands_ne_nil {statement : Axiom}
    (spelled : Operands prefixes statement input rest) : statement.operands ≠ [] := by
  cases spelled with
  | equivalentClasses _ enough | disjointClasses _ enough =>
    rw [Axiom.operands, renderAll_classes]
    exact map_ne_nil (by omega)
  | differentIndividuals _ enough => exact map_ne_nil (by omega)
  | _ => simp [Axiom.operands]

theorem renders_classes {classes : List ClassExpression}
    {Spells : List Lexeme → List Lexeme → Prop}
    (spelled : Sequence (Class prefixes) classes input rest) (enough : 2 ≤ classes.length)
    (writable : prefixes.Writable)
    (make : ∀ {input rest}, Sequence (Class other) classes input rest → 2 ≤ classes.length →
      Spells input rest) :
    Renders Spells (spaced (ClassExpression.renderAll classes)) input rest := by
  rw [renderAll_classes]
  exact ((Class.eachRenders writable spelled).sequence (by omega)).imp
    fun classes => make classes enough

theorem Operands.renders {statement : Axiom} (spelled : Operands prefixes statement input rest)
    (writable : prefixes.Writable) :
    Renders (Operands other statement) (spaced statement.operands) input rest := by
  have writes := writesNames_resolve writable
  cases spelled with
  | subClassOf sub super =>
    exact .pair (sub.renders writable) (super.renders writable) .subClassOf
  | equivalentClasses classes enough =>
    exact renders_classes classes enough writable .equivalentClasses
  | disjointClasses classes enough =>
    exact renders_classes classes enough writable .disjointClasses
  | subObjectPropertyOf sub super =>
    exact .pair (sub.renders writable) (super.renders writable) .subObjectPropertyOf
  | inverseObjectProperties one two =>
    exact .pair (one.renders writable) (two.renders writable) .inverseObjectProperties
  | objectPropertyDomain property domain =>
    exact .pair (property.renders writable) (domain.renders writable) .objectPropertyDomain
  | objectPropertyRange property range =>
    exact .pair (property.renders writable) (range.renders writable) .objectPropertyRange
  | objectCharacteristic property =>
    exact (property.renders writable).imp .objectCharacteristic
  | subDataPropertyOf sub super =>
    exact .pair (sub.renders writable) (super.renders writable) .subDataPropertyOf
  | dataPropertyDomain property domain =>
    exact .pair (property.renders writable) (domain.renders writable) .dataPropertyDomain
  | dataPropertyRange property range =>
    exact .pair (property.renders writable) (range.renders writable) .dataPropertyRange
  | functionalDataProperty property =>
    exact (property.renders writable).imp .functionalDataProperty
  | classAssertion expression individual =>
    exact .pair (expression.renders writable) (individual.renders writable) .classAssertion
  | objectPropertyAssertion property source target =>
    exact .triple (property.renders writable) (source.renders writable)
      (target.renders writable) .objectPropertyAssertion
  | negativeObjectPropertyAssertion property source target =>
    exact .triple (property.renders writable) (source.renders writable)
      (target.renders writable) .negativeObjectPropertyAssertion
  | dataPropertyAssertion property source target =>
    exact .triple (property.renders writable) (source.renders writable)
      (target.renders writable) .dataPropertyAssertion
  | differentIndividuals individuals enough =>
    exact (individuals.renders (by omega) fun one => one.renders writable).imp
      fun individuals => .differentIndividuals individuals enough
  | annotationAssertion property subject value =>
    exact .triple (property.renders writes) (subject.renders writable)
      (value.renders writable) .annotationAssertion
  | annotationPropertyDomain property domain =>
    exact .pair (property.renders writes) (domain.renders writes) .annotationPropertyDomain
  | annotationPropertyRange property range =>
    exact .pair (property.renders writes) (range.renders writes) .annotationPropertyRange

/-! ## Statements -/

/-- The operands of an axiom with its annotations before them. -/
theorem renders_annotated {notes : List Annotation} {statement : Axiom} {middle : List Lexeme}
    (spelled : Sequence (Note prefixes) notes input middle)
    (operands : Operands prefixes statement middle rest) (writable : prefixes.Writable)
    (other : Prefixes) :
    Renders (fun input rest => ∃ middle, Sequence (Note other) notes input middle ∧
        Operands other statement middle rest)
      (spaced (notes.map (·.render) ++ statement.operands)) input rest := by
  induction spelled with
  | nil => exact (operands.renders writable).imp fun spelled => ⟨_, .nil, spelled⟩
  | cons note notes ih =>
    -- No axiom is without operands, so something follows that a space sets apart.
    exact ((note.renders writable).cons (ih operands)
      (List.append_ne_nil_of_right_ne_nil _ operands.operands_ne_nil)).imp
      fun ⟨_, note, _, notes, spelled⟩ => ⟨_, .cons note notes, spelled⟩

theorem Sentence.shut {annotated : AnnotatedAxiom}
    (spelled : Sentence prefixes (.assertion annotated) input rest) (formed : AllFormed input)
    (writable : prefixes.Writable) (other : Prefixes) :
    Shut (Sentence other (.assertion annotated)) annotated.render.toList := by
  cases spelled with
  | assertion opens notes operands closes =>
    have inside := renders_annotated notes operands writable other
    exact (shut_applied (inside (opens.isLocal.formed formed)).2).imp
      fun ⟨_, opens, _, ⟨_, notes, operands⟩, closes⟩ => .assertion opens notes operands closes

theorem render_declaration (declared : Declaration) :
    declared.render = applied .declaration [applied (.entity declared.kind) [declared.iri.render]] := by
  have word : Keyword.declaration.text = "Declaration" := rfl
  have kind : (Keyword.entity declared.kind).text = declared.kind.name := by
    cases declared.kind <;> rfl
  apply String.toList_injective
  simp [Declaration.render, applied, spaced, word, kind]

theorem shut_declaration {declared : Declaration} (writable : declared.iri.Writable)
    (position : Position) (other : Prefixes) :
    Shut (Sentence other (.declaration declared [] position)) declared.render.toList := by
  have named : Printed _ (spaced [declared.iri.render]).toList :=
    (shut_name writable other.resolve?).printed
  have entity : Printed _ (spaced [applied (.entity declared.kind) [declared.iri.render]]).toList :=
    (shut_applied named).printed
  rw [render_declaration]
  exact (shut_applied entity).imp
    fun ⟨_, opens, _, ⟨_, inner, _, name, ends⟩, closes⟩ =>
      .declaration opens .nil inner name ends closes

end Spelling

end OwlFunctional
