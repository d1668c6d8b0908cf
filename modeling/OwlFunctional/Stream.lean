import OwlFunctional.Input
import OwlFunctional.Lexeme
import OwlFunctional.Position

/-! The lexemes of a document, read one after the other, with a single step back.

A stream is a cursor over a fixed list of lexemes. It knows the line it is on, the text read on
that line, and the balance of parentheses: how many were opened and not closed.
-/

set_option autoImplicit false

namespace OwlFunctional

structure Place where
  line : Nat
  head : String
  balance : Int
  deriving DecidableEq, Repr

namespace Place

def start : Place := ⟨0, "", 0⟩

/-- What a token adds to the balance of parentheses. -/
def weight : Token → Int
  | .openParen => 1
  | .closeParen => -1
  | _ => 0

def after (place : Place) (lexeme : Lexeme) : Place :=
  if lexeme.token = .eol then { place with line := place.line + 1, head := "" }
  else { place with
    head := place.head ++ lexeme.literal
    balance := place.balance + weight lexeme.token }

end Place

inductive LastStep where
  | none
  | read (lexeme : Lexeme) (before : Position)
  | back
  deriving DecidableEq, Repr

/-- A lexeme that was read, with the position before it. -/
structure Scanned where
  lexeme : Lexeme
  position : Position
  deriving DecidableEq, Repr

def Scanned.token (scanned : Scanned) : Token := scanned.lexeme.token

def Scanned.literal (scanned : Scanned) : String := scanned.lexeme.literal

structure Stream where
  source : String
  ahead : List Lexeme
  /-- To read the last lexeme is to look at the end of the input as well. -/
  looksAtEnd : Bool
  /-- The fault at the end of the input, until the end is looked at. -/
  pending : Option Fault
  /-- The fault that was met and not taken yet. -/
  met : Option Fault := none
  place : Place := .start
  lastStep : LastStep := .none
  logsTokens : Bool := false

/-- What a cursor finds where the next piece of a language tag may stand. -/
inductive Subtag where
  | piece (text : String)
  /-- A hyphen with something after it that is no subtag. -/
  | broken (found : Scanned)
  /-- Something else, which is not read, at the position before it. -/
  | absent (position : Position)
  deriving DecidableEq, Repr

namespace Stream

def ofInput (source : String) (input : Input) : Stream :=
  let sequence := Lexeme.sequence input.chars
  { source := source
    ahead := sequence.lexemes
    looksAtEnd := sequence.looksAtEnd
    pending := input.fault }

def position (stream : Stream) : Position := ⟨stream.source, stream.place.line, stream.place.head⟩

def next (stream : Stream) : Lexeme := stream.ahead.head?.getD .eof

def reachesEnd (stream : Stream) : Bool :=
  match stream.ahead with
  | [] => true
  | [_] => stream.looksAtEnd
  | _ => false

def meet (stream : Stream) : Stream :=
  { stream with met := stream.pending <|> stream.met, pending := none }

def scan (stream : Stream) : Scanned × Stream :=
  let stepped := { stream with
    ahead := stream.ahead.tail
    place := stream.place.after stream.next
    lastStep := .read stream.next stream.position }
  (⟨stream.next, stream.position⟩, if stream.reachesEnd then stepped.meet else stepped)

/-- Puts the last lexeme back, unless that was just done. Line and head are those from before it, and
what it added to the balance is taken off again. -/
def unscan (stream : Stream) : Stream :=
  match stream.lastStep with
  | .read lexeme before =>
    { stream with
      ahead := if lexeme.token = .eof then stream.ahead else lexeme :: stream.ahead
      place :=
        { line := before.line
          head := before.head
          balance := stream.place.balance - Place.weight lexeme.token }
      lastStep := .back }
  | _ => stream

def skip : Nat → Stream → Stream
  | 0, stream => stream
  | count + 1, stream => skip count stream.scan.2

def leadingTrivia (stream : Stream) : Nat :=
  (stream.ahead.takeWhile fun lexeme => lexeme.token.isTrivia).length

def token (stream : Stream) : Scanned × Stream := (stream.skip stream.leadingTrivia).scan

def peek (stream : Stream) : Scanned × Stream :=
  let (found, after) := stream.token
  (found, after.unscan)

/-- Reads the next piece of a language tag if it directly follows: a hyphen with a word or a
number, or a negative number. -/
def subtag (stream : Stream) : Subtag × Stream :=
  let (first, after) := stream.scan
  if first.lexeme = ⟨.illegal, "-"⟩ then
    let (second, after) := after.scan
    if second.token.isWord || second.token = .integer then
      (.piece ("-" ++ second.literal), after)
    else (.broken second, after)
  else if first.token = .integer ∧ first.literal.toList.head? = some '-' then
    (.piece first.literal, after)
  else (.absent first.position, after.unscan)

/-- The fault that ended the input early, which is given once only. -/
def takeFault (stream : Stream) : Option Fault × Stream := (stream.met, { stream with met := none })

end Stream

end OwlFunctional
