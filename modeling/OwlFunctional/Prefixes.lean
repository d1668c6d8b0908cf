import OwlFunctional.Iri
import OwlFunctional.Ordered

/-! The abbreviations of a document: labels that stand for namespaces. -/

set_option autoImplicit false

namespace OwlFunctional

/-- A label bound to a namespace. The empty label is the default one. -/
structure Binding where
  label : String
  space : String
  deriving DecidableEq, Repr

@[ext]
structure Prefixes where
  bindings : List Binding
  ordered : Ordered Binding.label bindings
  deriving DecidableEq, Repr

namespace Prefixes

def empty : Prefixes := ⟨[], .nil⟩

def get? (prefixes : Prefixes) (label : String) : Option String :=
  (prefixes.bindings.find? fun binding => binding.label == label).map (·.space)

def contains (prefixes : Prefixes) (label : String) : Bool := (prefixes.get? label).isSome

/-- Binds a label, in place of what it was bound to before. -/
def insert (prefixes : Prefixes) (label space : String) : Prefixes :=
  ⟨placeBy Binding.label ⟨label, space⟩ prefixes.bindings, prefixes.ordered.placeBy _⟩

def resolve? (prefixes : Prefixes) (label name : String) : Option Iri :=
  (prefixes.get? label).map fun space => ⟨space ++ name⟩

def renderBinding (binding : Binding) : String :=
  "Prefix(" ++ binding.label ++ ":=<" ++ binding.space ++ ">)\n"

def render (prefixes : Prefixes) : String :=
  prefixes.bindings.foldr (fun binding text => renderBinding binding ++ text) ""

end Prefixes

end OwlFunctional
