/-! The written form of addresses of version 6 of the internet protocol. -/

set_option autoImplicit false

namespace OwlFunctional.Iri

def isHexDigit (c : Char) : Bool := c.isDigit || ('a' ≤ c && c ≤ 'f') || ('A' ≤ c && c ≤ 'F')

/-- Reads one to four hexadecimal digits, with none after them. -/
def readGroup? (text : List Char) : Option (List Char) :=
  let digits := text.takeWhile isHexDigit
  if 1 ≤ digits.length ∧ digits.length ≤ 4 then some (text.dropWhile isHexDigit) else none

def readOctet? (text : List Char) : Option (List Char) :=
  let digits := text.takeWhile Char.isDigit
  let value := digits.foldl (fun value digit => 10 * value + (digit.toNat - '0'.toNat)) 0
  if 1 ≤ digits.length ∧ digits.length ≤ 3 ∧ value < 256 ∧
      (digits.length = 1 ∨ digits.head? ≠ some '0') then
    some (text.dropWhile Char.isDigit)
  else none

def readMark? (mark : Char) : List Char → Option (List Char)
  | c :: rest => if c = mark then some rest else none
  | [] => none

def readQuad? (text : List Char) : Option (List Char) := do
  let rest ← readOctet? text
  let rest ← readMark? '.' rest >>= readOctet?
  let rest ← readMark? '.' rest >>= readOctet?
  readMark? '.' rest >>= readOctet?

structure Groups where
  count : Nat
  /-- The last two groups are written as four octets. -/
  endsInQuad : Bool
  rest : List Char

def readGroups (limit : Nat) (atStart : Bool) (text : List Char) : Groups :=
  match limit with
  | 0 => ⟨0, false, text⟩
  | limit + 1 =>
    let start := if atStart then some text else readMark? ':' text
    match if 1 ≤ limit then start >>= readQuad? else none with
    | some rest => ⟨2, true, rest⟩
    | none =>
      match start >>= readGroup? with
      | none => ⟨0, false, text⟩
      | some rest =>
        let others := readGroups limit false rest
        { others with count := others.count + 1 }

/-- Eight groups, or fewer with one `::` that stands for at least one group. -/
def isAddress (text : List Char) : Bool :=
  let first := readGroups 8 true text
  if first.count = 8 then first.rest.isEmpty
  else if first.endsInQuad then false
  else match first.rest with
    | ':' :: ':' :: rest => (readGroups (7 - first.count) true rest).rest.isEmpty
    | _ => false

end OwlFunctional.Iri
