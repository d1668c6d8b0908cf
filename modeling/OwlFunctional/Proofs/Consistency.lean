import OwlFunctional.Proofs.Recognition.Document

/-! What holds of every catalogue that a document was read into.

It has the axioms of the accepted statements in reading order, and the characteristics are those that
the axioms give.
-/

set_option autoImplicit false

namespace OwlFunctional

namespace Catalogue

/-- The characteristics of properties after one more axiom. -/
def noteTraits (traits : List (Iri × CharacteristicSet)) (annotated : AnnotatedAxiom) :
    List (Iri × CharacteristicSet) :=
  (note annotated.statement { empty .explicit with traits := traits }).traits

theorem note_traits (annotated : AnnotatedAxiom) (catalogue : Catalogue) :
    (catalogue.note annotated.statement).traits = noteTraits catalogue.traits annotated := by
  have named (property : ObjectPropertyExpression) (characteristic : Characteristic)
      {first second : Catalogue} (same : first.traits = second.traits) :
      (first.characterize property characteristic).traits =
        (second.characterize property characteristic).traits := by
    cases property <;> simp [characterize, same]
  obtain ⟨statement, notes⟩ := annotated
  cases statement with
  | objectCharacteristic characteristic property => exact named _ _ rfl
  | inverseObjectProperties first second => exact named _ _ (named _ _ rfl)
  | functionalDataProperty property => cases property <;> rfl
  | _ => rfl

/-- The characteristics that axioms give, one after the other. -/
def traitsOf (axioms : List AnnotatedAxiom) : List (Iri × CharacteristicSet) :=
  axioms.foldl noteTraits []

def Consistent (catalogue : Catalogue) : Prop :=
  catalogue.traits = traitsOf catalogue.axioms.toList

theorem consistent_empty (policy : Policy) : (empty policy).Consistent := rfl

theorem Consistent.list {catalogue : Catalogue} (consistent : catalogue.Consistent)
    (kind : EntityKind) (entry : Entry) : (catalogue.list kind entry).Consistent := consistent

theorem Consistent.lookup {catalogue : Catalogue} (consistent : catalogue.Consistent)
    (kind : EntityKind) (iri : Iri) : (catalogue.lookup kind iri).2.Consistent := by
  unfold Catalogue.lookup
  split
  · exact consistent
  · exact consistent
  · exact consistent.list kind _

theorem Consistent.write {catalogue : Catalogue} (consistent : catalogue.Consistent)
    (statement : Statement) : (catalogue.write statement).2.Consistent := by
  cases statement with
  | declaration declared annotations position =>
    have listed := consistent.list declared.kind ⟨declared.iri, .explicit⟩
    simp only [Catalogue.write, declare]
    split
    · exact consistent
    · dsimp only
      split
      · exact listed
      · exact listed
  | assertion annotated =>
    have noted := note_traits annotated catalogue
    simp only [Catalogue.write, add, Consistent]
    rw [note_eq] at noted ⊢
    rw [noted, consistent, traitsOf, traitsOf]
    simp

end Catalogue

/-- The axiom of an assertion. -/
def Statement.asserted? : Statement → Option AnnotatedAxiom
  | .declaration .. => none
  | .assertion annotated => some annotated

theorem Catalogue.write_axioms (statement : Statement) (catalogue : Catalogue) :
    (catalogue.write statement).2.axioms.toList =
      catalogue.axioms.toList ++ statement.asserted?.toList := by
  cases statement with
  | declaration declared annotations position =>
    simp only [write, declare, Statement.asserted?]
    split
    · simp
    · dsimp only
      split <;> simp [list]
  | assertion annotated =>
    simp only [write, add, Statement.asserted?]
    rw [note_eq]
    simp

section

variable {checks : Checks} {session after : Session Catalogue}

theorem Reads.consistent {α : Type} {reading : Reading α} {value : α}
    (read : Reads checks reading session value after) (consistent : session.store.Consistent) :
    after.store.Consistent := by
  refine read.relates (fun first second => first.store.Consistent → second.store.Consistent)
    (fun _ => id) (fun first second => second ∘ first) ?_ consistent
  intro query state consistent
  cases query with
  | find kind iri =>
    have kept := consistent.lookup kind iri
    have same : (Store.find kind iri state.store).2 = (state.store.lookup kind iri).2 := rfl
    rw [← same] at kept
    simp only [Session.answer]
    split
    · next found =>
      rw [found] at kept
      exact kept
    · next found =>
      rw [found] at kept
      exact kept
  | _ => exact consistent

theorem Accepted.consistent {scope : Scope} {accepted : List (Statement × Session Catalogue)}
    (chain : Accepted checks scope session accepted after)
    (consistent : session.store.Consistent) : after.store.Consistent := by
  induction chain with
  | none => exact consistent
  | @more statement others session read written last first wrote chain ih =>
    have kept := (first.consistent consistent).write statement
    rw [(wrote_iff.mp wrote).1] at kept
    exact ih kept

theorem Accepted.axioms {scope : Scope} {accepted : List (Statement × Session Catalogue)}
    (chain : Accepted checks scope session accepted after) :
    after.store.axioms.toList =
      session.store.axioms.toList ++ (accepted.map (·.1)).filterMap Statement.asserted? := by
  induction chain with
  | none => simp
  | @more statement others session read written last first wrote chain ih =>
    have added := read.store.write_axioms statement
    rw [(wrote_iff.mp wrote).1, first.grows.axioms] at added
    rw [ih, added, List.map_cons, List.filterMap_cons]
    cases statement.asserted? <;> simp

end

namespace Document

variable {settings : Settings} {start after : Session Catalogue} {ontology : Ontology}
  {statements : List Statement}

theorem Completes.consistent (completes : Completes settings start ontology statements after)
    (consistent : start.store.Consistent) : after.store.Consistent := by
  obtain ⟨read, chain, close, finish, -⟩ := completes
  exact finish.consistent (close.consistent (chain.consistent (read.consistent consistent)))

theorem Completes.axioms (completes : Completes settings start ontology statements after) :
    after.store.axioms.toList =
      start.store.axioms.toList ++ statements.filterMap Statement.asserted? := by
  obtain ⟨read, chain, close, finish, rfl⟩ := completes
  rw [finish.grows.axioms, close.grows.axioms, chain.axioms, read.grows.axioms]

end Document

end OwlFunctional
