/-! The written forms of numbers: whole numerals, decimal numerals and their values.

A numeral is judged by its text alone. The bounds of whole numbers are those of 64 bit signed
integers for tokens and of 32 bit unsigned integers for cardinalities.
-/

set_option autoImplicit false

namespace OwlFunctional.Text

def unsigned : List Char → List Char
  | '+' :: rest => rest
  | '-' :: rest => rest
  | text => text

def isDigits (text : List Char) : Bool := !text.isEmpty && text.all Char.isDigit

def isWhole (text : List Char) : Bool := isDigits (unsigned text)

def digitsValue (digits : List Char) : Nat :=
  digits.foldl (fun value digit => 10 * value + (digit.toNat - '0'.toNat)) 0

def wholeValue? (text : List Char) : Option Int :=
  if isWhole text then
    let size : Int := digitsValue (unsigned text)
    some (if text.head? = some '-' then -size else size)
  else none

/-- A whole numeral between `-2^63` and `2^63 - 1`. -/
def isInteger64 (text : List Char) : Bool :=
  match wholeValue? text with
  | some value => decide (-9223372036854775808 ≤ value ∧ value ≤ 9223372036854775807)
  | none => false

/-- The cardinality a numeral writes: an optional `+`, then digits of a value below `2^32`. -/
def cardinality? (text : List Char) : Option UInt32 :=
  let digits := match text with
    | '+' :: rest => rest
    | _ => text
  if isDigits digits && digitsValue digits < UInt32.size then
    some (UInt32.ofNat (digitsValue digits))
  else none

def isMantissa (text : List Char) : Bool :=
  let whole := text.takeWhile Char.isDigit
  match text.dropWhile Char.isDigit with
  | [] => !whole.isEmpty
  | '.' :: fraction => (!whole.isEmpty || !fraction.isEmpty) && fraction.all Char.isDigit
  | _ => false

def isExponentMark (c : Char) : Bool := c == 'e' || c == 'E'

def isSpecialNumber (text : List Char) : Bool :=
  ["inf", "infinity", "nan"].any fun word => word.toList == text.map Char.toLower

/-- A decimal numeral: an optional sign, then a special word or a mantissa with an optional
exponent. Its size is not bounded. -/
def isDecimal (text : List Char) : Bool :=
  let body := unsigned text
  let mantissa := body.takeWhile fun c => !isExponentMark c
  match body.dropWhile fun c => !isExponentMark c with
  | [] => isMantissa mantissa || isSpecialNumber body
  | _ :: power => isMantissa mantissa && isWhole power

end OwlFunctional.Text
