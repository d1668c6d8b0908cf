import OwlFunctional.Axiom
import OwlFunctional.Event

/-! Where the statements of a document go.

A reader only looks up entities, declares them and adds axioms. Any type with these operations is
a store.
-/

set_option autoImplicit false

namespace OwlFunctional

class Store (σ : Type) where
  /-- Looks an entity up for use in the place of the given kind. A store may declare it at its
  first use. -/
  lookup : EntityKind → Iri → σ → Option Declaration × σ
  /-- Declares an entity. The answer is false if that was done before. -/
  declare : Declaration → List Annotation → σ → Bool × σ
  add : AnnotatedAxiom → σ → σ
  lookupEvents : EntityKind → Iri → σ → List Event := fun _ _ _ => []
  declareEvents : Declaration → σ → List Event := fun _ _ => []

/-- Looks up an entity of a kind. A declaration of another kind does not count. -/
def Store.find {σ : Type} [Store σ] (kind : EntityKind) (iri : Iri) (store : σ) :
    Option (Entity kind) × σ :=
  let (found, store) := Store.lookup kind iri store
  (found.bind fun declaration => declaration.entity? kind, store)

end OwlFunctional
