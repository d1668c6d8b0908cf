import OwlFunctional.Text.Utf8

/-! What a reader delivers: bytes, and perhaps a fault after them. -/

set_option autoImplicit false

namespace OwlFunctional

inductive FaultKind where
  | invalidData
  | other
  deriving DecidableEq, Repr

structure Fault where
  kind : FaultKind
  text : String
  deriving DecidableEq, Repr

def Fault.notUtf8 : Fault := ⟨.invalidData, "the input is not valid UTF-8"⟩

structure Input where
  bytes : List UInt8
  /-- The fault of the reader after these bytes. Without one the input ends there. -/
  failure : Option Fault := none

namespace Input

def ofString (text : String) : Input := { bytes := text.toUTF8.toList }

def chars (input : Input) : List Char := (Text.Utf8.decode input.bytes).chars

/-- The fault after the characters. A reader that fails inside of a character is to blame for
it; bytes that are not a character are found before the reader can fail. -/
def fault (input : Input) : Option Fault :=
  match (Text.Utf8.decode input.bytes).ending with
  | .complete => input.failure
  | .cut => some (input.failure.getD .notUtf8)
  | .invalid => some .notUtf8

end Input

end OwlFunctional
