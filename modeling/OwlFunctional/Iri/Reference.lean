import OwlFunctional.Iri
import OwlFunctional.Iri.Address
import OwlFunctional.Text.Letter

/-! The grammar of absolute identifiers: scheme, authority, path, query and fragment.

A text is read from left to right, and the first fault is the one that is told.
-/

set_option autoImplicit false

namespace OwlFunctional

inductive IriError where
  | noScheme
  | codePoint (found : Char)
  | percentEncoding (found : List Char)
  | hostCharacter (found : Char)
  | hostAddress
  | portCharacter (found : Char)
  deriving DecidableEq, Repr

namespace IriError

def addressMessage : String := "invalid IPv6 address syntax"

def message : IriError → String
  | noScheme => "No scheme found in an absolute IRI"
  | codePoint found => "Invalid IRI code point '" ++ found.toString ++ "'"
  | percentEncoding found => "Invalid IRI percent encoding '%" ++ String.ofList found ++ "'"
  | hostCharacter found => "Invalid character '" ++ found.toString ++ "' in host"
  | hostAddress => "Invalid host IP (" ++ addressMessage ++ ")"
  | portCharacter found => "Invalid character '" ++ found.toString ++ "'"

end IriError

namespace Iri

def isPlainAscii (c : Char) : Bool := c.isAlphanum || "!$&'()*+,-.;=_~".toList.contains c

def wideRanges : Text.Ranges := [
  (0xA0, 0xD7FF), (0xF900, 0xFDCF), (0xFDF0, 0xFFEF), (0x10000, 0x1FFFD), (0x20000, 0x2FFFD),
  (0x30000, 0x3FFFD), (0x40000, 0x4FFFD), (0x50000, 0x5FFFD), (0x60000, 0x6FFFD),
  (0x70000, 0x7FFFD), (0x80000, 0x8FFFD), (0x90000, 0x9FFFD), (0xA0000, 0xAFFFD),
  (0xB0000, 0xBFFFD), (0xC0000, 0xCFFFD), (0xD0000, 0xDFFFD), (0xE1000, 0xEFFFD)]

/-- Characters for private use, which only a query can hold. -/
def privateRanges : Text.Ranges := [(0xE000, 0xF8FF), (0xF0000, 0xFFFFD), (0x100000, 0x10FFFD)]

def isPlain (c : Char) : Bool := isPlainAscii c || wideRanges.contain c.toNat

def isPathChar (c : Char) : Bool := isPlain c || c == ':' || c == '@' || c == '/'

def isFragmentChar (c : Char) : Bool := isPathChar c || c == '?'

def isQueryChar (c : Char) : Bool := isFragmentChar c || privateRanges.contain c.toNat

def isSchemeChar (c : Char) : Bool := c.isAlphanum || c == '+' || c == '-' || c == '.'

def endsSegment (c : Char) : Bool := c == '/' || c == '?' || c == '#'

/-- Reads up to a character that ends the part. Every character before it is allowed, or is a
percent sign with two hexadecimal digits. -/
def readPart (allowed ends : Char → Bool) : List Char → Except IriError (List Char)
  | [] => .ok []
  | c :: rest =>
    if ends c then .ok (c :: rest)
    else if allowed c then readPart allowed ends rest
    else if c = '%' then
      match rest with
      | high :: low :: rest =>
        if isHexDigit high && isHexDigit low then readPart allowed ends rest
        else .error (.percentEncoding [high, low])
      | short => .error (.percentEncoding short)
    else .error (.codePoint c)

def checkFragment (text : List Char) : Except IriError Unit := do
  let _ ← readPart isFragmentChar (fun _ => false) text

def checkQuery (text : List Char) : Except IriError Unit := do
  match ← readPart isQueryChar (· == '#') text with
  | _ :: fragment => checkFragment fragment
  | [] => .ok ()

def checkPath (text : List Char) : Except IriError Unit := do
  match ← readPart isPathChar (fun c => c == '?' || c == '#') text with
  | '?' :: query => checkQuery query
  | _ :: fragment => checkFragment fragment
  | [] => .ok ()

def checkPort (text : List Char) : Except IriError Unit :=
  match text.dropWhile Char.isDigit with
  | [] => .ok ()
  | c :: rest => if endsSegment c then checkPath (c :: rest) else .error (.portCharacter c)

/-- What stands in brackets after a `v`: a version in hexadecimal digits, a dot and a name. -/
def checkFutureHost (inside : List Char) : Except IriError Unit :=
  let version := inside.takeWhile (· != '.')
  let name := (inside.dropWhile (· != '.')).tail
  match version.find? (!isHexDigit ·) with
  | some c => .error (.hostCharacter c)
  | none =>
    if version.isEmpty then .error (.hostCharacter (name.head?.getD ']'))
    else if name.isEmpty then .error (.hostCharacter ']')
    else match name.find? fun c => !(isPlainAscii c || c == ':') with
      | some c => .error (.hostCharacter c)
      | none => .ok ()

def checkBracketedHost (inside : List Char) : Except IriError Unit :=
  match inside with
  | 'v' :: inside => checkFutureHost inside
  | 'V' :: inside => checkFutureHost inside
  | inside => if isAddress inside then .ok () else .error .hostAddress

def checkHost (text : List Char) : Except IriError Unit := do
  match text with
  | '[' :: rest =>
    match rest.dropWhile (· != ']') with
    | [] => .error (.hostCharacter '[')
    | _ :: after =>
      checkBracketedHost (rest.takeWhile (· != ']'))
      match after with
      | [] => .ok ()
      | ':' :: digits => checkPort digits
      | c :: rest => if endsSegment c then checkPath (c :: rest) else .error (.hostCharacter c)
  | text =>
    match ← readPart isPlain (fun c => c == ':' || endsSegment c) text with
    | ':' :: digits => checkPort digits
    | path => checkPath path

def checkAuthority (text : List Char) : Except IriError Unit := do
  match ← readPart (fun c => isPlain c || c == ':') (fun c => c == '@' || c == '[' || endsSegment c)
      text with
  | '@' :: host => checkHost host
  | _ => checkHost text

def checkAfterSlash (text : List Char) : Except IriError Unit :=
  match text with
  | '/' :: authority => checkAuthority authority
  | path => checkPath path

def checkHierarchy (text : List Char) : Except IriError Unit :=
  match text with
  | '/' :: rest => checkAfterSlash rest
  | path => checkPath path

/-- A reference without a scheme: its first segment holds no colon. -/
def checkRelative (text : List Char) : Except IriError Unit := do
  match text with
  | '/' :: rest => checkAfterSlash rest
  | text => checkPath (← readPart (fun c => isPlain c || c == '@') endsSegment text)

def afterScheme? (text : List Char) : Option (List Char) :=
  if (text.head?.map Char.isAlpha).getD false then
    match text.dropWhile isSchemeChar with
    | ':' :: rest => some rest
    | _ => none
  else none

def refusal? (text : String) : Option IriError :=
  let checked : Except IriError Unit :=
    match afterScheme? text.toList with
    | some rest => checkHierarchy rest
    | none => do
      if text.toList.head? ≠ some ':' then checkRelative text.toList
      .error .noScheme
  match checked with
  | .ok () => none
  | .error error => some error

end Iri

end OwlFunctional
