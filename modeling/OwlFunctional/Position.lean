/-! Places in a document, for messages. -/

set_option autoImplicit false

namespace OwlFunctional

structure Position where
  source : String
  /-- The number of line ends before the point. -/
  line : Nat
  /-- The text of the lexemes between the last of these line ends and the point. -/
  head : String
  deriving DecidableEq, Repr, Inhabited

namespace Position

/-- Columns are counted from one, in characters. -/
def column (position : Position) : Nat := position.head.length + 1

def columnWithTabs (position : Position) (size : Nat) : Nat :=
  let tabs := position.head.toList.count '\t'
  position.column + tabs * size - tabs

def shownChars : Nat := 20

def context (position : Position) : String :=
  let length := position.head.length
  if length = 0 then "at start of line"
  else if length ≤ shownChars then "after '" ++ position.head ++ "'"
  else "after '..." ++ String.ofList (position.head.toList.drop (length - shownChars)) ++ "'"

def render (position : Position) : String :=
  position.source ++ " " ++ toString (position.line + 1) ++ ":" ++ toString position.column

end Position

end OwlFunctional
