import OwlFunctional.Text.Letter

/-! Labels of anonymous individuals. -/

set_option autoImplicit false

namespace OwlFunctional

def labelLetterRanges : Text.Ranges := [
  (0x41, 0x5A), (0x61, 0x7A), (0xC0, 0xD6), (0xD8, 0xF6), (0xF8, 0x2FF), (0x370, 0x37D),
  (0x37F, 0x1FFF), (0x200C, 0x200D), (0x2070, 0x218F), (0x2C00, 0x2FEF), (0x3001, 0xD7FF),
  (0xF900, 0xFDCF), (0xFDF0, 0xFFFD), (0x10000, 0xEFFFF)]

def startsLabel (c : Char) : Bool :=
  c.isDigit || c == '_' || c == ':' || labelLetterRanges.contain c.toNat

def continuesLabel (c : Char) : Bool :=
  startsLabel c || c == '-' || c == '.' ||
    Text.Ranges.contain [(0xB7, 0xB7), (0x300, 0x36F), (0x203F, 0x2040)] c.toNat

/-- A label is not empty, starts as a label does, goes on as one, and does not end with a dot. -/
def isLabel (text : List Char) : Bool :=
  match text with
  | [] => false
  | first :: rest =>
    startsLabel first && rest.all continuesLabel && text.getLast? != some '.'

structure BlankLabel where
  text : String
  valid : isLabel text.toList = true
  deriving DecidableEq

namespace BlankLabel

def ofString? (text : String) : Option BlankLabel :=
  if valid : isLabel text.toList = true then some ⟨text, valid⟩ else none

def invalidMessage : String := "The blank node identifier is invalid"

def render (label : BlankLabel) : String := "_:" ++ label.text

theorem ofString?_text (label : BlankLabel) : ofString? label.text = some label :=
  dif_pos label.valid

end BlankLabel

end OwlFunctional
