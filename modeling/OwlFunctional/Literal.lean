import OwlFunctional.Text.Quoted
import OwlFunctional.Vocabulary

/-! Literals: a value with its datatype and perhaps the language it is written in. -/

set_option autoImplicit false

namespace OwlFunctional

structure Literal where
  value : String
  datatype : Iri
  language : Option String := none
  deriving DecidableEq, Repr

namespace Literal

def quote (value : String) : String := "\"" ++ String.ofList (Text.escape value.toList) ++ "\""

/-- The datatype is left out where the language implies it. -/
def render (literal : Literal) : String :=
  match literal.language with
  | none => quote literal.value ++ "^^" ++ literal.datatype.render
  | some language =>
    if literal.datatype = Vocabulary.langString then quote literal.value ++ "@" ++ language
    else quote literal.value ++ "@" ++ language ++ "^^" ++ literal.datatype.render

end Literal

end OwlFunctional
