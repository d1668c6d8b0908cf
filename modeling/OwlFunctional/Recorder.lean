import OwlFunctional.Store

/-! A store that only records what it is given. -/

set_option autoImplicit false

namespace OwlFunctional

inductive Record where
  | declaration (declaration : Declaration) (annotations : List Annotation)
  | statement (annotated : AnnotatedAxiom)

def Record.render : Record → String
  | declaration declared _ => declared.render
  | statement annotated => annotated.render

/-- Takes every name for an entity of one kind, accepts every declaration, also a repeated one,
and keeps everything it is given in order. -/
structure Recorder where
  kind : EntityKind
  records : Array Record := #[]

instance : Store Recorder where
  lookup _ iri recorder := (some ⟨recorder.kind, iri⟩, recorder)
  declare declaration annotations recorder :=
    (true, { recorder with records := recorder.records.push (.declaration declaration annotations) })
  add annotated recorder :=
    { recorder with records := recorder.records.push (.statement annotated) }

end OwlFunctional
