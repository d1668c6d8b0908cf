/-! Internationalised resource identifiers, the names of everything an ontology speaks about. -/

set_option autoImplicit false

namespace OwlFunctional

/-- An identifier as it was read or built. Nothing is required of its text. -/
structure Iri where
  text : String
  deriving DecidableEq, Repr, Inhabited

namespace Iri

def render (iri : Iri) : String := "<" ++ iri.text ++ ">"

def unbracket? (written : String) : Option String :=
  match written.toList with
  | '<' :: inside => if inside.getLast? = some '>' then some (.ofList inside.dropLast) else none
  | _ => none

/-- The namespace, up to the last `#`, and the local name after it. Without a `#` the whole text
is the namespace. -/
def split (iri : Iri) : String × String :=
  let reversed := iri.text.toList.reverse
  let localPart := reversed.takeWhile (· != '#')
  match reversed.dropWhile (· != '#') with
  | [] => (iri.text, "")
  | space => (.ofList space.reverse, .ofList localPart.reverse)

theorem unbracket?_render (iri : Iri) : unbracket? iri.render = some iri.text := by
  simp [unbracket?, render]

end Iri

end OwlFunctional
