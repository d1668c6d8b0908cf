/-! Well-formed language tags: subtags joined by hyphens. -/

set_option autoImplicit false

namespace OwlFunctional

inductive TagError where
  | emptyExtension
  | emptyPrivateUse
  | unknownSubtag
  | invalidLanguage
  | longSubtag
  | emptySubtag
  | tooManyExtlangs
  deriving DecidableEq, Repr

def TagError.message : TagError → String
  | emptyExtension => "If an extension subtag is present, it must not be empty"
  | emptyPrivateUse => "If the `x` subtag is present, it must not be empty"
  | unknownSubtag => "A subtag fails to parse, it does not match any other subtags"
  | invalidLanguage => "The given language subtag is invalid"
  | longSubtag => "A subtag may be eight characters in length at maximum"
  | emptySubtag => "A subtag should not be empty"
  | tooManyExtlangs => "At maximum three extlangs are allowed"

namespace LanguageTag

/-- Tags that were registered as a whole, in lower case. -/
def registered : List String := [
  "art-lojban", "cel-gaulish", "en-gb-oed", "i-ami", "i-bnn", "i-default", "i-enochian", "i-hak",
  "i-klingon", "i-lux", "i-mingo", "i-navajo", "i-pwn", "i-tao", "i-tay", "i-tsu", "no-bok",
  "no-nyn", "sgn-be-fr", "sgn-be-nl", "sgn-ch-de", "zh-guoyu", "zh-hakka", "zh-min", "zh-min-nan",
  "zh-xiang"]

def maxSize : Nat := 8

def size (subtag : List Char) : Nat := subtag.foldl (fun bytes c => bytes + c.utf8Size) 0

def split : List Char → List (List Char)
  | [] => [[]]
  | c :: rest =>
    match split rest with
    | first :: others => if c = '-' then [] :: first :: others else (c :: first) :: others
    | [] => [[c]]

inductive Part where
  | language (extlangs : Nat)
  | extlang
  | script
  | region
  /-- An extension, and whether only its singleton has been read. -/
  | extension (bare : Bool)
  /-- Subtags for private use, and whether only the `x` has been read. -/
  | privateUse (bare : Bool)
  deriving DecidableEq, Repr

namespace Part

def takesScript : Part → Bool
  | language _ | extlang => true
  | _ => false

def takesRegion : Part → Bool
  | language _ | extlang | script => true
  | _ => false

/-- A variant follows all but extensions and subtags for private use. -/
def takesVariant : Part → Bool
  | language _ | extlang | script | region => true
  | _ => false

end Part

def checkSize (subtag : List Char) : Except TagError Unit :=
  if subtag.isEmpty then .error .emptySubtag
  else if maxSize < size subtag then .error .longSubtag
  else .ok ()

def firstPart (subtag : List Char) : Except TagError Part := do
  checkSize subtag
  if subtag.length < 2 ∨ !subtag.all Char.isAlpha then .error .invalidLanguage
  else .ok (if subtag.length < 4 then .language 0 else .extlang)

def isVariant (subtag : List Char) : Bool :=
  subtag.all Char.isAlphanum &&
    match subtag with
    | first :: _ => (first.isAlpha && 5 ≤ subtag.length) || (first.isDigit && 4 ≤ subtag.length)
    | [] => false

/-- The part of a subtag that is neither for private use nor of an extension. -/
def plainPart (part : Part) (subtag : List Char) : Except TagError Part :=
  let isLetters (length : Nat) := subtag.length = length && subtag.all Char.isAlpha
  match part, isLetters 3 with
  | .language extlangs, true =>
    if extlangs < 3 then .ok (.language (extlangs + 1)) else .error .tooManyExtlangs
  | part, _ =>
    if part.takesScript && isLetters 4 then .ok .script
    else if part.takesRegion && (isLetters 2 || (subtag.length = 3 && subtag.all Char.isDigit)) then
      .ok .region
    else if part.takesVariant && isVariant subtag then .ok .region
    else .error .unknownSubtag

def nextPart (part : Part) (subtag : List Char) : Except TagError Part := do
  checkSize subtag
  match part with
  | .privateUse _ =>
    if subtag.all Char.isAlphanum then .ok (.privateUse false) else .error .unknownSubtag
  | part =>
    if subtag = ['x'] ∨ subtag = ['X'] then
      if part = .extension true then .error .emptyExtension else .ok (.privateUse true)
    else if subtag.length = 1 ∧ subtag.all Char.isAlphanum then
      if part = .extension true then .error .emptyExtension else .ok (.extension true)
    else match part with
      | .extension _ =>
        if subtag.all Char.isAlphanum then .ok (.extension false) else .error .unknownSubtag
      | part => plainPart part subtag

/-- An extension and a part for private use hold at least one subtag. -/
def checkEnd : Part → Except TagError Unit
  | .extension true => .error .emptyExtension
  | .privateUse true => .error .emptyPrivateUse
  | _ => .ok ()

def checkSubtags : List (List Char) → Except TagError Unit
  | [] => .ok ()
  | first :: rest => do
    let part ← firstPart first
    let last ← rest.foldlM nextPart part
    checkEnd last

def checkPrivate (subtags : List (List Char)) : Except TagError Unit :=
  if subtags = [[]] then .error .emptyPrivateUse
  else subtags.forM fun subtag => do
    checkSize subtag
    if subtag.all Char.isAlphanum then .ok () else .error .unknownSubtag

def check (tag : List Char) : Except TagError Unit :=
  if registered.contains (.ofList (tag.map Char.toLower)) then .ok ()
  else match split tag with
    | ['x'] :: first :: rest => checkPrivate (first :: rest)
    | ['X'] :: first :: rest => checkPrivate (first :: rest)
    | subtags => checkSubtags subtags

def refusal? (tag : String) : Option TagError :=
  match check tag.toList with
  | .ok () => none
  | .error error => some error

end LanguageTag

end OwlFunctional
