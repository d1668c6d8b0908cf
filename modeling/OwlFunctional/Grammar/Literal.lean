import OwlFunctional.Grammar.Name

/-! How literals are read. -/

set_option autoImplicit false

namespace OwlFunctional.Grammar

open Reading

/-- The rest of a language tag, of which the given text was read before. -/
def languageRest (tag : String) : Nat → Reading String
  | 0 => limitReached
  | limit + 1 => do
    match ← subtag with
    | .piece text => languageRest (tag ++ text) limit
    | .broken found => failOn found .noSubtag
    | .absent position => do
      checkTag tag fun error => .found position (.invalidTag tag error)
      pure tag

def language (scope : Scope) : Reading (Option String) := do
  if ← accept .atSign then
    let first ← token
    if first.token.isWord then
      some <$> languageRest first.literal scope.limit
    else failOn first .noSubtag
  else pure none

def datatypeSuffix (scope : Scope) : Reading (Option Iri) := do
  if ← accept .doubleCaret then
    let (datatype, _) ← name scope
    pure (some datatype)
  else pure none

def defaultDatatype (kind : LiteralKind) (language : Option String) : Iri :=
  match kind with
  | .whole => Vocabulary.integer
  | .decimal => Vocabulary.decimal
  | .text => if language.isSome then Vocabulary.langString else Vocabulary.string

/-- Whether a literal of a written form has a value of a datatype of the given form. A number can
also be written as a string without a language. -/
def fits (written expected : LiteralKind) (value : String) (language : Option String) : Bool :=
  match written, expected, language with
  | .text, .whole, none => Text.isWhole value.toList
  | .text, .decimal, none => Text.isDecimal value.toList
  | _, _, _ => written == expected

def writtenKind? : Token → Option LiteralKind
  | .string => some .text
  | .integer => some .whole
  | .decimal => some .decimal
  | _ => none

def literalValue (kind : LiteralKind) (text : String) : String :=
  match kind with
  | .text => .ofList (Text.unescape text.toList)
  | _ => text

def literal (scope : Scope) : Reading Literal := do
  let first ← token
  match first.token, writtenKind? first.token with
  | .boolean _, _ => pure ⟨first.literal, Vocabulary.boolean, none⟩
  | _, none => (failOn first (.missing .literal) : Reading Literal).within .literal
  | _, some kind => do
    let value := literalValue kind first.literal
    let language ← if kind = .text then (language scope).within .literal else pure none
    match ← (datatypeSuffix scope).within .literal with
    | none => pure ⟨value, defaultDatatype kind language, language⟩
    | some datatype =>
      match Vocabulary.datatypeKind? datatype with
      | some expected =>
        if fits kind expected value language then pure ⟨value, datatype, language⟩
        else
          (failAt first.position (.literalMismatch datatype) : Reading Literal).within .literal
      | none => pure ⟨value, datatype, language⟩

end OwlFunctional.Grammar
