import OwlFunctional.Event
import OwlFunctional.Stream

/-! The log of a stream: the events that each of its steps reports. -/

set_option autoImplicit false

namespace OwlFunctional.Stream

def showBalance (balance : Int) : String := "\x7b" ++ toString balance ++ "\x7d"

/-- A lexeme that was put back before is reported with the position before it, any other with
the position reached. -/
def scanMessage (stream : Stream) : String :=
  let (found, after) := stream.scan
  let balance := showBalance after.place.balance
  if stream.lastStep = .back then
    "re-read " ++ found.lexeme.describe ++ " after " ++ found.position.render ++ " " ++ balance
  else
    "scanned " ++ found.lexeme.describe ++ " reached " ++ after.position.render ++ " " ++
      after.position.context ++ " " ++ balance

def report (stream : Stream) (message : String) : List Event :=
  if stream.logsTokens then [⟨.trace, .tokens, message⟩] else []

def scanEvents (stream : Stream) : List Event := stream.report stream.scanMessage

def unscanEvents (stream : Stream) : List Event :=
  match stream.lastStep with
  | .read .. => stream.report ("unscanned -> " ++ stream.unscan.position.context)
  | _ => []

def skipEvents : Nat → Stream → List Event
  | 0, _ => []
  | count + 1, stream => stream.scanEvents ++ skipEvents count stream.scan.2

def tokenEvents (stream : Stream) : List Event :=
  stream.skipEvents stream.leadingTrivia ++ (stream.skip stream.leadingTrivia).scanEvents

def peekEvents (stream : Stream) : List Event :=
  stream.tokenEvents ++ stream.token.2.unscanEvents

def subtagEvents (stream : Stream) : List Event :=
  let (first, after) := stream.scan
  if first.lexeme = ⟨.illegal, "-"⟩ then stream.scanEvents ++ after.scanEvents
  else if first.token = .integer ∧ first.literal.toList.head? = some '-' then stream.scanEvents
  else stream.scanEvents ++ after.unscanEvents

end OwlFunctional.Stream
