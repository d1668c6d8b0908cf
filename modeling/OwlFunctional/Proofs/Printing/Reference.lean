import OwlFunctional.Proofs.Printing.Statement
import OwlFunctional.Proofs.References

/-! All that a spelled statement refers to has a name that can be written. -/

set_option autoImplicit false

namespace OwlFunctional

/-- The names of all references can stand between angle brackets. -/
def WritableReferences (references : List Declaration) : Prop :=
  ∀ declaration ∈ references, declaration.iri.Writable

namespace WritableReferences

variable {α : Type} {first second : List Declaration}

theorem none : WritableReferences [] := by simp [WritableReferences]

theorem single {kind : EntityKind} {iri : Iri} (writable : iri.Writable) :
    WritableReferences [⟨kind, iri⟩] := by simpa [WritableReferences] using writable

theorem append (one : WritableReferences first) (two : WritableReferences second) :
    WritableReferences (first ++ second) := List.forall_mem_append.mpr ⟨one, two⟩

theorem flatMap {values : List α} {references : α → List Declaration}
    (each : ∀ value ∈ values, WritableReferences (references value)) :
    WritableReferences (values.flatMap references) := by
  intro declaration member
  obtain ⟨value, listed, member⟩ := List.mem_flatMap.mp member
  exact each value listed declaration member

end WritableReferences

namespace Spelling

open Lexeme

variable {input rest : List Lexeme} {prefixes : Prefixes}

theorem Individual.writable {individual : OwlFunctional.Individual}
    (spelled : Individual prefixes individual input rest) (formed : AllFormed input)
    (writable : prefixes.Writable) : WritableReferences individual.references := by
  cases spelled with
  | named name => exact .single (name.writable formed (writesNames_globally writable))
  | anonymous short => exact .none

theorem ObjectProperty.writable {property : ObjectPropertyExpression}
    (spelled : ObjectProperty prefixes property input rest) (formed : AllFormed input)
    (writable : prefixes.Writable) : WritableReferences property.references := by
  have writes := writesNames_resolve writable
  cases spelled with
  | top name | bottom name => exact .none
  | named name => exact .single (name.writable formed writes)
  | inverseOf opens name closes => exact .single (name.writable (opens.isLocal.formed formed) writes)

theorem DataProperty.writable {property : DataPropertyExpression}
    (spelled : DataProperty prefixes property input rest) (formed : AllFormed input)
    (writable : prefixes.Writable) : WritableReferences property.references := by
  cases spelled with
  | top name | bottom name => exact .none
  | named name => exact .single (name.writable formed (writesNames_resolve writable))

mutual

theorem DataRange.writable (writable : prefixes.Writable) :
    ∀ {range : OwlFunctional.DataRange} {input rest : List Lexeme},
    DataRange prefixes range input rest → AllFormed input → WritableReferences range.references
  | _, _, _, .builtin _ _, _ => .none
  | _, _, _, .named _ name, formed => .single (name.writable formed (writesNames_resolve writable))
  | _, _, _, .restriction opens name _ _ _, formed => by
    have named := name.writable (opens.isLocal.formed formed) (writesNames_resolve writable)
    unfold DataRange.references
    split
    · exact .none
    · exact .single named
  | _, _, _, .junction opens operands _ _, formed => by
    rw [DataRange.references, DataRange.referencesOfAll_eq]
    exact .flatMap (DataRange.eachWritable writable operands (opens.isLocal.formed formed))
  | _, _, _, .complementOf opens operand _, formed => by
    rw [DataRange.references]
    exact DataRange.writable writable operand (opens.isLocal.formed formed)
  | _, _, _, .oneOf _ _ _ _, _ => .none

theorem DataRange.eachWritable (writable : prefixes.Writable) :
    ∀ {ranges : List OwlFunctional.DataRange} {input rest : List Lexeme},
    Sequence (DataRange prefixes) ranges input rest → AllFormed input →
    ∀ range ∈ ranges, WritableReferences range.references
  | _, _, _, .nil, _ => by simp
  | _, _, _, .cons first others, formed => by
    have later := DataRange.eachWritable writable others (first.isLocal.formed formed)
    exact List.forall_mem_cons.mpr ⟨DataRange.writable writable first formed, later⟩

end

mutual

theorem Class.writable (writable : prefixes.Writable) :
    ∀ {expression : ClassExpression} {input rest : List Lexeme},
    Class prefixes expression input rest → AllFormed input →
    WritableReferences expression.references
  | _, _, _, .thing _, _ => .none
  | _, _, _, .nothing _, _ => .none
  | _, _, _, .named name, formed => .single (name.writable formed (writesNames_resolve writable))
  | _, _, _, .junction opens operands _ _, formed => by
    rw [ClassExpression.references, ClassExpression.referencesOfAll_eq]
    exact .flatMap (Class.eachWritable writable operands (opens.isLocal.formed formed))
  | _, _, _, .complementOf opens operand _, formed => by
    rw [ClassExpression.references]
    exact Class.writable writable operand (opens.isLocal.formed formed)
  | _, _, _, .oneOf opens individuals _ _, formed =>
    .flatMap (individuals.forall_of_formed (opens.isLocal.formed formed)
      (fun one => one.isLocal.framed) fun one formed => one.writable formed writable)
  | _, _, _, .objectQuantified opens property filler _, formed => by
    have formedFirst := opens.isLocal.formed formed
    exact (property.writable formedFirst writable).append
      (Class.writable writable filler (property.isLocal.formed formedFirst))
  | _, _, _, .objectHasValue opens property value _, formed => by
    have formedFirst := opens.isLocal.formed formed
    exact (property.writable formedFirst writable).append
      (value.writable (property.isLocal.formed formedFirst) writable)
  | _, _, _, .objectHasSelf opens property _, formed =>
    property.writable (opens.isLocal.formed formed) writable
  | _, _, _, .objectCardinality opens count property _, formed =>
    property.writable (count.isLocal.formed (opens.isLocal.formed formed)) writable
  | _, _, _, .objectQualified opens count property filler _, formed => by
    have formedSecond := count.isLocal.formed (opens.isLocal.formed formed)
    exact (property.writable formedSecond writable).append
      (Class.writable writable filler (property.isLocal.formed formedSecond))
  | _, _, _, .dataQuantified opens property range _, formed => by
    have formedFirst := opens.isLocal.formed formed
    exact (property.writable formedFirst writable).append
      (DataRange.writable writable range (property.isLocal.formed formedFirst))
  | _, _, _, .dataHasValue opens property _ _, formed =>
    property.writable (opens.isLocal.formed formed) writable
  | _, _, _, .dataCardinality opens count property _, formed =>
    property.writable (count.isLocal.formed (opens.isLocal.formed formed)) writable
  | _, _, _, .dataQualified opens count property range _, formed => by
    have formedSecond := count.isLocal.formed (opens.isLocal.formed formed)
    exact (property.writable formedSecond writable).append
      (DataRange.writable writable range (property.isLocal.formed formedSecond))

theorem Class.eachWritable (writable : prefixes.Writable) :
    ∀ {classes : List ClassExpression} {input rest : List Lexeme},
    Sequence (Class prefixes) classes input rest → AllFormed input →
    ∀ expression ∈ classes, WritableReferences expression.references
  | _, _, _, .nil, _ => by simp
  | _, _, _, .cons first others, formed => by
    have later := Class.eachWritable writable others (first.isLocal.formed formed)
    exact List.forall_mem_cons.mpr ⟨Class.writable writable first formed, later⟩

end

theorem writable_annotationProperty {property : Entity .annotationProperty}
    (name : Name prefixes.resolve? property.iri input rest) (formed : AllFormed input)
    (writable : prefixes.Writable) : WritableReferences (annotationReferences property) := by
  unfold annotationReferences
  split
  · exact .none
  · exact .single (name.writable formed (writesNames_resolve writable))

theorem writable_annotations {notes : List Annotation}
    (spelled : Sequence (Note prefixes) notes input rest) (formed : AllFormed input)
    (writable : prefixes.Writable) :
    WritableReferences (notes.flatMap Annotation.references) := by
  refine .flatMap (spelled.forall_of_formed formed (fun note => note.isLocal.framed) ?_)
  intro note input rest spelled formed
  obtain ⟨_, _, _, opens, name, -⟩ := spelled
  exact writable_annotationProperty name (opens.isLocal.formed formed) writable

theorem Operands.writable {statement : Axiom} (spelled : Operands prefixes statement input rest)
    (formed : AllFormed input) (writable : prefixes.Writable) :
    WritableReferences statement.references := by
  cases spelled with
  | subClassOf sub super =>
    exact (sub.writable writable formed).append
      (super.writable writable (sub.isLocal.formed formed))
  | equivalentClasses classes _ | disjointClasses classes _ =>
    exact .flatMap (Class.eachWritable writable classes formed)
  | subObjectPropertyOf sub super | inverseObjectProperties sub super =>
    exact (sub.writable formed writable).append
      (super.writable (sub.isLocal.formed formed) writable)
  | objectPropertyDomain property domain | objectPropertyRange property domain =>
    exact (property.writable formed writable).append
      (domain.writable writable (property.isLocal.formed formed))
  | objectCharacteristic property => exact property.writable formed writable
  | subDataPropertyOf sub super =>
    exact (sub.writable formed writable).append
      (super.writable (sub.isLocal.formed formed) writable)
  | dataPropertyDomain property domain =>
    exact (property.writable formed writable).append
      (domain.writable writable (property.isLocal.formed formed))
  | dataPropertyRange property range =>
    exact (property.writable formed writable).append
      (range.writable writable (property.isLocal.formed formed))
  | functionalDataProperty property => exact property.writable formed writable
  | classAssertion expression individual =>
    exact (expression.writable writable formed).append
      (individual.writable (expression.isLocal.formed formed) writable)
  | objectPropertyAssertion property source target
  | negativeObjectPropertyAssertion property source target =>
    have formedSource := property.isLocal.formed formed
    exact (property.writable formed writable).append ((source.writable formedSource writable).append
      (target.writable (source.isLocal.formed formedSource) writable))
  | dataPropertyAssertion property source target =>
    exact (property.writable formed writable).append
      (source.writable (property.isLocal.formed formed) writable)
  | differentIndividuals individuals _ =>
    exact .flatMap (individuals.forall_of_formed formed (fun one => one.isLocal.framed)
      fun one formed => one.writable formed writable)
  | annotationAssertion name | annotationPropertyDomain name | annotationPropertyRange name =>
    exact writable_annotationProperty name formed writable

/-- A declaration names what can be written, too. -/
theorem Sentence.writable {statement : Statement}
    (spelled : Sentence prefixes statement input rest) (formed : AllFormed input)
    (writable : prefixes.Writable) : WritableReferences statement.references ∧
      ∀ declared notes position, statement = .declaration declared notes position →
        declared.iri.Writable := by
  cases spelled with
  | declaration opens notes inner name ends closes =>
    have formedNotes := opens.isLocal.formed formed
    have formedInner := (notes.framed fun note => note.isLocal.framed).formed formedNotes
    refine ⟨writable_annotations notes formedNotes writable, ?_⟩
    rintro _ _ _ ⟨⟩
    exact name.writable (inner.isLocal.formed formedInner) (writesNames_resolve writable)
  | assertion opens notes operands closes =>
    have formedNotes := opens.isLocal.formed formed
    have formedOperands := (notes.framed fun note => note.isLocal.framed).formed formedNotes
    exact ⟨(writable_annotations notes formedNotes writable).append
      (operands.writable formedOperands writable), by simp⟩

end Spelling

end OwlFunctional
