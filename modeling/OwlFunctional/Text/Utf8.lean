/-! Decoding of bytes as UTF-8, one character after the other.

The first byte of a character fixes how many bytes it takes. Decoding stops at the first
character that is cut short by the end of the bytes or that is not well formed.
-/

set_option autoImplicit false

namespace OwlFunctional.Text

inductive Utf8.Ending where
  | complete
  | cut
  | invalid
  deriving DecidableEq, Repr

structure Utf8.Decoded where
  chars : List Char
  ending : Utf8.Ending
  deriving DecidableEq, Repr

namespace Utf8

def width? (first : UInt8) : Option Nat :=
  if first < 0x80 then some 1
  else if first < 0xC0 then none
  else if first < 0xE0 then some 2
  else if first < 0xF0 then some 3
  else if first < 0xF8 then some 4
  else none

def continuation? (byte : UInt8) : Option Nat :=
  if 0x80 ≤ byte ∧ byte < 0xC0 then some (byte.toNat - 0x80) else none

/-- The character with a code point, if the code point has one and needs as many bytes as were
used for it. -/
def char? (least point : Nat) : Option Char :=
  if least ≤ point ∧ point.isValidChar then some (Char.ofNat point) else none

def char2? (a b : UInt8) : Option Char := do
  let low ← continuation? b
  char? 0x80 ((a.toNat - 0xC0) * 64 + low)

def char3? (a b c : UInt8) : Option Char := do
  let high ← continuation? b
  let low ← continuation? c
  char? 0x800 ((a.toNat - 0xE0) * 4096 + high * 64 + low)

def char4? (a b c d : UInt8) : Option Char := do
  let high ← continuation? b
  let middle ← continuation? c
  let low ← continuation? d
  char? 0x10000 ((a.toNat - 0xF0) * 262144 + high * 4096 + middle * 64 + low)

/-- Decodes bytes after characters that were decoded before, given latest first. -/
def decodeAfter (read : List Char) : List UInt8 → Decoded
  | [] => ⟨read.reverse, .complete⟩
  | a :: rest =>
    match width? a with
    | some 1 => decodeAfter (Char.ofNat a.toNat :: read) rest
    | some 2 =>
      match rest with
      | b :: rest =>
        match char2? a b with
        | some c => decodeAfter (c :: read) rest
        | none => ⟨read.reverse, .invalid⟩
      | _ => ⟨read.reverse, .cut⟩
    | some 3 =>
      match rest with
      | b :: c :: rest =>
        match char3? a b c with
        | some c => decodeAfter (c :: read) rest
        | none => ⟨read.reverse, .invalid⟩
      | _ => ⟨read.reverse, .cut⟩
    | some _ =>
      match rest with
      | b :: c :: d :: rest =>
        match char4? a b c d with
        | some c => decodeAfter (c :: read) rest
        | none => ⟨read.reverse, .invalid⟩
      | _ => ⟨read.reverse, .cut⟩
    | none => ⟨read.reverse, .invalid⟩

def decode (bytes : List UInt8) : Decoded := decodeAfter [] bytes

end Utf8

end OwlFunctional.Text
