import OwlFunctional.Text.Numeral
import OwlFunctional.Text.Quoted
import OwlFunctional.Token

/-! Lexemes: how a text falls into tokens.

Every text does: a character that starts nothing else is a lexeme of its own. A lexeme takes as
many characters as its token allows.
-/

set_option autoImplicit false

namespace OwlFunctional

/-- A token with its text. The text of a string is what stands between its quotes, as written. -/
structure Lexeme where
  token : Token
  literal : String
  deriving DecidableEq, Repr

namespace Lexeme

def eof : Lexeme := ⟨.eof, ""⟩

def describe (lexeme : Lexeme) : String :=
  if lexeme.token.isSilent then lexeme.token.name
  else lexeme.token.name ++ " " ++ lexeme.literal

def brief (lexeme : Lexeme) : String := Text.trimEnd lexeme.describe

structure Cut where
  lexeme : Lexeme
  rest : List Char
  /-- The end of the lexeme shows without a look at the character after it. -/
  closed : Bool

def Cut.shut (token : Token) (literal rest : List Char) : Cut := ⟨⟨token, .ofList literal⟩, rest, true⟩

def Cut.ajar (token : Token) (literal rest : List Char) : Cut := ⟨⟨token, .ofList literal⟩, rest, false⟩

def isLineEnd (c : Char) : Bool := c == '\n' || c == '\r'

def isBlank (c : Char) : Bool := c == ' ' || c == '\t'

def startsNumber (c : Char) : Bool := c == '+' || c == '-' || c.isDigit

def continuesNumber (c : Char) : Bool := c.isDigit || c == '.'

def numberToken (text : List Char) : Token :=
  if Text.isInteger64 text then .integer
  else if Text.isDecimal text then .decimal
  else .illegal

def symbolToken : Char → Token
  | ':' => .colon
  | '=' => .equals
  | ',' => .comma
  | '(' => .openParen
  | ')' => .closeParen
  | '@' => .atSign
  | _ => .illegal

/-- A lexeme made of a first character and the longest run of characters that can follow it. -/
def cutRun (token : List Char → Token) (continues : Char → Bool) (first : Char)
    (rest : List Char) : Cut :=
  let literal := first :: rest.takeWhile continues
  .ajar (token literal) literal (rest.dropWhile continues)

def cutLineEnd (first : Char) (rest : List Char) : Cut :=
  if first = '\n' then .shut .eol ['\n'] rest
  else match rest with
    | '\n' :: rest => .shut .eol ['\r', '\n'] rest
    | rest => .ajar .eol ['\r'] rest

/-- A string goes up to its closing quote, or up to the end of the text. -/
def cutString (rest : List Char) : Cut :=
  match Text.splitQuoted rest with
  | (inside, some rest) => .shut .string inside rest
  | (inside, none) => .ajar .string inside []

def cutCaret (rest : List Char) : Cut :=
  match rest with
  | '^' :: rest => .shut .doubleCaret ['^', '^'] rest
  | rest => .ajar .illegal ['^'] rest

/-- An identifier in brackets goes up to its closing bracket, but not past the line. -/
def cutIri (rest : List Char) : Cut :=
  let continues := fun c => c != '>' && !isLineEnd c
  let inside := rest.takeWhile continues
  match rest.dropWhile continues with
  | '>' :: rest => .shut .iri ('<' :: inside ++ ['>']) rest
  | rest => .ajar .iri ('<' :: inside) rest

def cut (first : Char) (rest : List Char) : Cut :=
  if isBlank first then cutRun (fun _ => .blank) isBlank first rest
  else if isLineEnd first then cutLineEnd first rest
  else if first = '"' then cutString rest
  else if first = '#' then cutRun (fun _ => .comment) (fun c => !isLineEnd c) first rest
  else if first = '^' then cutCaret rest
  else if first = '<' then cutIri rest
  else if startsNumber first then cutRun numberToken continuesNumber first rest
  else if Text.startsWord first then
    cutRun (fun text => .ofWord (.ofList text)) Text.continuesWord first rest
  else .shut (symbolToken first) [first] rest

structure Sequence where
  lexemes : List Lexeme
  /-- To read the last lexeme is to look at the end of the text as well. -/
  looksAtEnd : Bool

/-- Cuts at most `limit` lexemes off a text, after those read before, given latest first. -/
def cutAll (limit : Nat) (read : List Lexeme) (looksAtEnd : Bool) (text : List Char) : Sequence :=
  match limit, text with
  | limit + 1, first :: rest =>
    let next := cut first rest
    cutAll limit (next.lexeme :: read) (!next.closed) next.rest
  | _, _ => ⟨read.reverse, looksAtEnd⟩

/-- All lexemes of a text: there are at most as many as characters. -/
def sequence (text : List Char) : Sequence := cutAll text.length [] false text

end Lexeme

end OwlFunctional
