import OwlFunctional.Proofs.Characteristics
import OwlFunctional.Proofs.History

/-! The characteristics of a property after any calls of a store.

What an axiom implies for a property is told here by the forms of axioms and expressions alone. The
characteristics of a property are the union of what all axioms imply for it, so that neither the
order of the calls nor their repetition shows, and none is ever taken back.
-/

set_option autoImplicit false

namespace OwlFunctional

inductive ObjectPropertyExpression.Concerns (iri : Iri) : ObjectPropertyExpression → Prop where
  | named : Concerns iri (.named ⟨iri⟩)
  | inverseOf : Concerns iri (.inverseOf ⟨iri⟩)

/-- What an axiom implies for the property with a name. -/
inductive Axiom.Implies (iri : Iri) : Axiom → Characteristic → Prop where
  | stated {characteristic : ObjectCharacteristic} :
      Implies iri (.objectCharacteristic characteristic (.named ⟨iri⟩)) (.stated characteristic)
  | functionalInverse :
      Implies iri (.objectCharacteristic .functional (.inverseOf ⟨iri⟩)) (.stated .inverseFunctional)
  | inverseFunctionalInverse :
      Implies iri (.objectCharacteristic .inverseFunctional (.inverseOf ⟨iri⟩)) (.stated .functional)
  /-- All other characteristics are those of the inverse, too. -/
  | statedInverse {characteristic : ObjectCharacteristic} : characteristic ≠ .functional →
      characteristic ≠ .inverseFunctional →
      Implies iri (.objectCharacteristic characteristic (.inverseOf ⟨iri⟩)) (.stated characteristic)
  | oneSide {one other : ObjectPropertyExpression} : one.Concerns iri →
      Implies iri (.inverseObjectProperties one other) .hasInverse
  | otherSide {one other : ObjectPropertyExpression} : other.Concerns iri →
      Implies iri (.inverseObjectProperties one other) .hasInverse
  | functionalData : Implies iri (.functionalDataProperty (.named ⟨iri⟩)) (.stated .functional)

section

variable {iri : Iri} {characteristic : Characteristic}

theorem ObjectPropertyExpression.mem_given_hasInverse_iff {property : ObjectPropertyExpression} :
    (iri, characteristic) ∈ property.given .hasInverse ↔
      characteristic = .hasInverse ∧ property.Concerns iri := by
  constructor
  · intro given
    cases property with
    | named entity | inverseOf entity =>
      obtain ⟨rfl, rfl⟩ := Prod.mk.inj (List.mem_singleton.mp given)
      exact ⟨rfl, by constructor⟩
    | top | bottom => simp [ObjectPropertyExpression.given] at given
  · rintro ⟨rfl, concerns⟩
    cases concerns <;> exact List.mem_singleton.mpr rfl

theorem ObjectPropertyExpression.mem_given_stated_iff {stated : ObjectCharacteristic}
    {property : ObjectPropertyExpression} :
    (iri, characteristic) ∈ property.given (.stated stated) ↔
      (Axiom.objectCharacteristic stated property).Implies iri characteristic := by
  constructor
  · intro given
    cases property with
    | named entity =>
      obtain ⟨rfl, rfl⟩ := Prod.mk.inj (List.mem_singleton.mp given)
      exact .stated
    | inverseOf entity =>
      obtain ⟨rfl, rfl⟩ := Prod.mk.inj (List.mem_singleton.mp given)
      cases stated with
      | functional => exact .functionalInverse
      | inverseFunctional => exact .inverseFunctionalInverse
      | _ => exact .statedInverse (by simp) (by simp)
    | top | bottom => simp [ObjectPropertyExpression.given] at given
  · intro implied
    cases implied with
    | stated | functionalInverse | inverseFunctionalInverse => exact List.mem_singleton.mpr rfl
    | statedInverse direct inverse =>
      cases stated with
      | functional => exact absurd rfl direct
      | inverseFunctional => exact absurd rfl inverse
      | _ => exact List.mem_singleton.mpr rfl

theorem Axiom.mem_given_iff {statement : Axiom} :
    (iri, characteristic) ∈ statement.given ↔ statement.Implies iri characteristic := by
  cases statement with
  | objectCharacteristic stated property =>
    exact ObjectPropertyExpression.mem_given_stated_iff
  | inverseObjectProperties one other =>
    rw [given, List.mem_append, ObjectPropertyExpression.mem_given_hasInverse_iff,
      ObjectPropertyExpression.mem_given_hasInverse_iff]
    constructor
    · rintro (⟨rfl, concerns⟩ | ⟨rfl, concerns⟩)
      · exact .oneSide concerns
      · exact .otherSide concerns
    · intro implied
      cases implied with
      | oneSide concerns => exact .inl ⟨rfl, concerns⟩
      | otherSide concerns => exact .inr ⟨rfl, concerns⟩
  | functionalDataProperty property =>
    constructor
    · intro given
      cases property with
      | named entity =>
        obtain ⟨rfl, rfl⟩ := Prod.mk.inj (List.mem_singleton.mp given)
        exact .functionalData
      | top | bottom => simp [Axiom.given, DataPropertyExpression.given] at given
    · rintro ⟨⟩
      exact List.mem_singleton.mpr rfl
  | _ =>
    constructor
    · intro given
      simp [Axiom.given] at given
    · rintro ⟨⟩

end

namespace Catalogue

variable {catalogue : Catalogue} {policy : Policy} {operations : List Operation}

theorem Consistent.characteristics_iff (consistent : catalogue.Consistent) (iri : Iri)
    (characteristic : Characteristic) :
    (catalogue.characteristics iri).has characteristic = true ↔
      ∃ annotated ∈ catalogue.axioms.toList, annotated.statement.Implies iri characteristic := by
  rw [consistent.characteristics_has]
  simp only [Axiom.mem_given_iff]

theorem Recounts.characteristics_iff (recounts : catalogue.Recounts policy operations) (iri : Iri)
    (characteristic : Characteristic) :
    (catalogue.characteristics iri).has characteristic = true ↔
      ∃ statement, (∃ notes, .add ⟨statement, notes⟩ ∈ operations) ∧
        statement.Implies iri characteristic := by
  rw [recounts.consistent.characteristics_iff, recounts.axioms]
  constructor
  · rintro ⟨annotated, stored, implies⟩
    obtain ⟨operation, called, added⟩ := List.mem_filterMap.mp stored
    cases operation with
    | add given =>
      obtain rfl := Option.some.inj added
      exact ⟨given.statement, ⟨given.annotations, called⟩, implies⟩
    | _ => simp [Operation.added?] at added
  · rintro ⟨statement, ⟨notes, member⟩, implies⟩
    exact ⟨⟨statement, notes⟩, List.mem_filterMap.mpr ⟨_, member, rfl⟩, implies⟩

/-- After any calls a property has exactly the characteristics that the stored axioms imply for it.
Calls that add the same axioms, in whatever order, how often and with whatever annotations, give
it the same characteristics under both policies. No further call takes one of them back. -/
theorem characteristics_after_calls (policy : Policy) (operations : List Operation) (iri : Iri) :
    let store := (empty policy).after operations
    (∀ characteristic, (store.characteristics iri).has characteristic = true ↔
      ∃ annotated ∈ store.axioms.toList, annotated.statement.Implies iri characteristic) ∧
    store.axioms.toList = operations.filterMap Operation.added? ∧
    (∀ (other : Policy) (others : List Operation),
      (∀ statement, (∃ notes, .add ⟨statement, notes⟩ ∈ others) ↔
        ∃ notes, .add ⟨statement, notes⟩ ∈ operations) →
      ((empty other).after others).characteristics iri = store.characteristics iri) ∧
    ∀ (more : List Operation) (characteristic : Characteristic),
      (store.characteristics iri).has characteristic = true →
      ((store.after more).characteristics iri).has characteristic = true := by
  intro store
  have recounts : store.Recounts policy operations := (recounts_empty policy).after operations
  refine ⟨recounts.consistent.characteristics_iff iri, recounts.axioms,
    fun other others same => ?_, fun more characteristic has => ?_⟩
  · have again : ((empty other).after others).Recounts other others :=
      (recounts_empty other).after others
    have members : (((empty other).after others).characteristics iri).has =
        (store.characteristics iri).has := by
      funext characteristic
      rw [Bool.eq_iff_iff, again.characteristics_iff, recounts.characteristics_iff]
      simp only [same]
    exact congrArg CharacteristicSet.mk members
  · obtain ⟨statement, ⟨notes, member⟩, implies⟩ :=
      (recounts.characteristics_iff iri characteristic).mp has
    exact ((recounts.after more).characteristics_iff iri characteristic).mpr
      ⟨statement, ⟨notes, List.mem_append_left more member⟩, implies⟩

theorem characteristics_after_calls_reordered :
    let first : AnnotatedAxiom := ⟨.objectCharacteristic .functional (.inverseOf ⟨⟨"a:p"⟩⟩), []⟩
    let second : AnnotatedAxiom := ⟨.functionalDataProperty (.named ⟨⟨"a:p"⟩⟩), []⟩
    ((empty .implicit).after [.add second, .add first, .add second]).characteristics ⟨"a:p"⟩ =
      ((empty .explicit).after [.add first, .add second]).characteristics ⟨"a:p"⟩ := by
  intro first second
  obtain ⟨-, -, same, -⟩ :=
    characteristics_after_calls .explicit [.add first, .add second] ⟨"a:p"⟩
  refine same .implicit _ fun statement => exists_congr fun notes => ?_
  simp only [List.mem_cons, List.not_mem_nil, or_false]
  tauto

example :
    let store := (empty .explicit).after
      [.add ⟨.objectCharacteristic .functional (.inverseOf ⟨⟨"a:p"⟩⟩), []⟩,
        .add ⟨.functionalDataProperty (.named ⟨⟨"a:p"⟩⟩), []⟩]
    (store.characteristics ⟨"a:p"⟩).toList = [.stated .functional, .stated .inverseFunctional] := by
  decide

end Catalogue

end OwlFunctional
