import OwlFunctional.Proofs.Consistency

/-! The characteristics of a property, by the axioms that give them.

Each axiom gives characteristics to none, one or two properties. Those of a property are collected
from all axioms, so it makes no difference in which order the axioms stand.
-/

set_option autoImplicit false

namespace OwlFunctional

/-! ## What one axiom gives -/

/-- What it means for a named property that an expression has a characteristic. -/
def ObjectPropertyExpression.given (characteristic : Characteristic) :
    ObjectPropertyExpression → List (Iri × Characteristic)
  | .named entity => [(entity.iri, characteristic)]
  | .inverseOf entity => [(entity.iri, characteristic.inverse)]
  | .top | .bottom => []

def DataPropertyExpression.given (characteristic : Characteristic) :
    DataPropertyExpression → List (Iri × Characteristic)
  | .named entity => [(entity.iri, characteristic)]
  | .top | .bottom => []

/-- The characteristics that an axiom gives, with the properties that have them. -/
def Axiom.given : Axiom → List (Iri × Characteristic)
  | .objectCharacteristic characteristic property => property.given (.stated characteristic)
  | .inverseObjectProperties first second => first.given .hasInverse ++ second.given .hasInverse
  | .functionalDataProperty property => property.given (.stated .functional)
  | _ => []

namespace Catalogue

def traitsAt (traits : List (Iri × CharacteristicSet)) (iri : Iri) : CharacteristicSet :=
  ((traits.find? fun trait => trait.1 == iri).map (·.2)).getD .empty

theorem traitsAt_cons (name iri : Iri) (set : CharacteristicSet)
    (traits : List (Iri × CharacteristicSet)) :
    traitsAt ((name, set) :: traits) iri = if name = iri then set else traitsAt traits iri := by
  by_cases same : name = iri
  · simp [traitsAt, same]
  · simp [traitsAt, same]

theorem traitsAt_addTraits (name iri : Iri) (added characteristic : Characteristic)
    (traits : List (Iri × CharacteristicSet)) :
    (traitsAt (addTraits name (.single added) traits) iri).has characteristic = true ↔
      (traitsAt traits iri).has characteristic = true ∨
        (iri, characteristic) = (name, added) := by
  induction traits with
  | nil =>
    rw [addTraits, traitsAt_cons]
    by_cases same : name = iri
    · simp [same, CharacteristicSet.single, traitsAt, CharacteristicSet.empty]
    · simp [same, Ne.symm same, traitsAt, CharacteristicSet.empty]
  | cons first rest ih =>
    obtain ⟨other, members⟩ := first
    rw [addTraits]
    by_cases found : other = name
    · -- The set of the property is there and grows. In all other places nothing changes.
      subst found
      rw [if_pos rfl, traitsAt_cons, traitsAt_cons]
      by_cases same : other = iri
      · simp [same, CharacteristicSet.union, CharacteristicSet.single]
      · simp [same, Ne.symm same]
    · rw [if_neg found, traitsAt_cons, traitsAt_cons]
      by_cases same : other = iri
      · subst same
        simp [found]
      · rw [if_neg same, if_neg same]
        exact ih

theorem characterize_has (property : ObjectPropertyExpression) (added : Characteristic)
    (catalogue : Catalogue) (iri : Iri) (characteristic : Characteristic) :
    (traitsAt (catalogue.characterize property added).traits iri).has characteristic = true ↔
      (traitsAt catalogue.traits iri).has characteristic = true ∨
        (iri, characteristic) ∈ property.given added := by
  cases property with
  | named entity | inverseOf entity =>
    simp only [characterize, ObjectPropertyExpression.given, List.mem_singleton]
    exact traitsAt_addTraits ..
  | top | bottom => simp [characterize, ObjectPropertyExpression.given]

theorem characterizeData_has (property : DataPropertyExpression) (added : Characteristic)
    (catalogue : Catalogue) (iri : Iri) (characteristic : Characteristic) :
    (traitsAt (catalogue.characterizeData property added).traits iri).has characteristic = true ↔
      (traitsAt catalogue.traits iri).has characteristic = true ∨
        (iri, characteristic) ∈ property.given added := by
  cases property with
  | named entity =>
    simp only [characterizeData, DataPropertyExpression.given, List.mem_singleton]
    exact traitsAt_addTraits ..
  | top | bottom => simp [characterizeData, DataPropertyExpression.given]

theorem noteTraits_has (traits : List (Iri × CharacteristicSet)) (annotated : AnnotatedAxiom)
    (iri : Iri) (characteristic : Characteristic) :
    (traitsAt (noteTraits traits annotated) iri).has characteristic = true ↔
      (traitsAt traits iri).has characteristic = true ∨
        (iri, characteristic) ∈ annotated.statement.given := by
  unfold noteTraits
  cases annotated.statement with
  | objectCharacteristic stated property => exact characterize_has ..
  | inverseObjectProperties first second =>
    simp only [note, Axiom.given, List.mem_append]
    rw [characterize_has, characterize_has, or_assoc]
  | functionalDataProperty property => exact characterizeData_has ..
  | _ => simp [note, Axiom.given]

/-! ## What all axioms give -/

theorem foldl_noteTraits_has (axioms : List AnnotatedAxiom)
    (traits : List (Iri × CharacteristicSet)) (iri : Iri) (characteristic : Characteristic) :
    (traitsAt (axioms.foldl noteTraits traits) iri).has characteristic = true ↔
      (traitsAt traits iri).has characteristic = true ∨
        ∃ annotated ∈ axioms, (iri, characteristic) ∈ annotated.statement.given := by
  induction axioms generalizing traits with
  | nil => simp
  | cons first rest ih =>
    rw [List.foldl_cons, ih, noteTraits_has]
    simp [or_assoc]

theorem Consistent.characteristics_has {catalogue : Catalogue} (consistent : catalogue.Consistent)
    (iri : Iri) (characteristic : Characteristic) :
    (catalogue.characteristics iri).has characteristic = true ↔
      ∃ annotated ∈ catalogue.axioms.toList,
        (iri, characteristic) ∈ annotated.statement.given := by
  have noted : catalogue.characteristics iri = traitsAt (traitsOf catalogue.axioms.toList) iri := by
    rw [← consistent]
    rfl
  rw [noted, traitsOf, foldl_noteTraits_has]
  simp [traitsAt, CharacteristicSet.empty]

/-- Catalogues with the same axioms, in whatever order, give the same characteristics. -/
theorem Consistent.characteristics_eq {first second : Catalogue} (consistent : first.Consistent)
    (again : second.Consistent)
    (same : ∀ annotated, annotated ∈ first.axioms.toList ↔ annotated ∈ second.axioms.toList)
    (iri : Iri) : first.characteristics iri = second.characteristics iri := by
  have members : (first.characteristics iri).has = (second.characteristics iri).has := by
    funext characteristic
    rw [Bool.eq_iff_iff, consistent.characteristics_has, again.characteristics_has]
    simp only [same]
  exact congrArg CharacteristicSet.mk members

end Catalogue

end OwlFunctional
