import OwlFunctional.Prefixes

/-! The header of a document. -/

set_option autoImplicit false

namespace OwlFunctional

structure Ontology where
  iri : Iri
  version : Option Iri
  prefixes : Prefixes
  deriving DecidableEq, Repr

namespace Ontology

def summary (ontology : Ontology) (store : String) : String :=
  ontology.iri.text ++ " with " ++ store

end Ontology

end OwlFunctional
