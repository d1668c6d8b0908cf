import Mathlib.Data.List.TakeWhile
import Mathlib.Data.Nat.Digits.Defs
import OwlFunctional.Proofs.Cutting
import OwlFunctional.Proofs.Printing.Literal

/-! Which number a text writes, and which token it has.

The parsers judge a number by reading it. Here it is judged by what stands in it: a sign, the number
of its digits and dots, and its value in base ten, whatever zeros are in front.
-/

set_option autoImplicit false

namespace OwlFunctional

open Lexeme

/-! ## Values -/

namespace Text

/-- The number that digits write in base ten, the last of them for the ones. -/
def positionalValue (digits : List Char) : Nat :=
  Nat.ofDigits 10 (digits.reverse.map fun digit => digit.toNat - '0'.toNat)

/-- A text is an optional sign and at least one digit, and writes an integer. -/
inductive Denotes : List Char → Int → Prop where
  | bare {digits : List Char} : isDigits digits = true → Denotes digits (positionalValue digits)
  | plus {digits : List Char} : isDigits digits = true →
      Denotes ('+' :: digits) (positionalValue digits)
  | minus {digits : List Char} : isDigits digits = true →
      Denotes ('-' :: digits) (-positionalValue digits)

/-- Some digit, and one dot at most, after the sign if there is one. -/
def Pointed (text : List Char) : Prop :=
  (unsigned text).any Char.isDigit = true ∧ (unsigned text).count '.' ≤ 1

def Fits64 (value : Int) : Prop := -9223372036854775808 ≤ value ∧ value ≤ 9223372036854775807

instance : DecidablePred Fits64 := fun _ => inferInstanceAs (Decidable (_ ∧ _))

def Whole64 (text : List Char) : Prop := ∃ value, Denotes text value ∧ Fits64 value

theorem isWhole_of_wholeValue? {text : List Char} {value : Int}
    (whole : wholeValue? text = some value) : isWhole text = true := by
  unfold wholeValue? at whole
  split at whole
  · assumption
  · simp at whole

theorem isInteger64_iff {text : List Char} {value : Int} (whole : wholeValue? text = some value) :
    isInteger64 text = true ↔ Fits64 value := by
  simp only [isInteger64, whole, Fits64, decide_eq_true_eq]

theorem digitsValue_eq_positionalValue (digits : List Char) :
    digitsValue digits = positionalValue digits := by
  rw [positionalValue, Nat.ofDigits_eq_foldr, List.foldr_map, digitsValue,
    List.foldl_eq_foldr_reverse]
  simp [Nat.add_comm]

theorem wholeValue?_eq_some_iff {text : List Char} {value : Int} :
    wholeValue? text = some value ↔ Denotes text value := by
  constructor
  · intro whole
    have plain := isWhole_of_wholeValue? whole
    simp only [wholeValue?, plain, if_true, Option.some.injEq] at whole
    rw [digitsValue_eq_positionalValue] at whole
    unfold isWhole unsigned at plain
    split at plain
    · exact whole ▸ .plus plain
    · exact whole ▸ .minus plain
    · have head := head?_of_isDigits plain (c := '-') rfl
      rw [if_neg head, unsigned_of_isDigits plain] at whole
      exact whole ▸ .bare plain
  · rintro (plain | plain | plain)
    · have head := head?_of_isDigits plain (c := '-') rfl
      simp [wholeValue?, isWhole, unsigned_of_isDigits plain, plain, head,
        digitsValue_eq_positionalValue]
    · simp [wholeValue?, isWhole, unsigned, plain, digitsValue_eq_positionalValue]
    · simp [wholeValue?, isWhole, unsigned, plain, digitsValue_eq_positionalValue]

theorem Denotes.unique {text : List Char} {value other : Int} (denotes : Denotes text value)
    (also : Denotes text other) : value = other :=
  Option.some.inj
    ((wholeValue?_eq_some_iff.mpr denotes).symm.trans (wholeValue?_eq_some_iff.mpr also))

theorem isInteger64_eq_true_iff {text : List Char} : isInteger64 text = true ↔ Whole64 text := by
  constructor
  · intro integer
    have whole := isWhole_of_isInteger64 integer
    obtain ⟨value, written⟩ : ∃ value, wholeValue? text = some value := by simp [wholeValue?, whole]
    exact ⟨value, wholeValue?_eq_some_iff.mp written, (isInteger64_iff written).mp integer⟩
  · rintro ⟨value, denotes, fits⟩
    exact (isInteger64_iff (wholeValue?_eq_some_iff.mpr denotes)).mpr fits

/-! ## Digits and dots -/

theorem toLower_of_continuesNumber {c : Char} (inside : continuesNumber c = true) :
    c.toLower = c := by
  rcases Bool.or_eq_true_iff.mp inside with digit | dot
  · unfold Char.toLower
    split
    · next upper =>
      have great : 65 ≤ c.toNat := upper.1
      have small : c.toNat ≤ 57 := (Char.isDigit_iff_toNat.mp digit).2
      omega
    · rfl
  · rw [eq_of_beq dot]
    rfl

theorem not_isSpecialNumber {text : List Char} (inside : text.all continuesNumber = true) :
    isSpecialNumber text = false := by
  rw [Bool.eq_false_iff]
  intro special
  obtain ⟨word, listed, same⟩ := List.any_eq_true.mp special
  -- All of these words have an `n`, and neither a digit nor a dot becomes one.
  have letters : ∀ word ∈ ["inf", "infinity", "nan"], 'n' ∈ word.toList := by decide
  have letter := letters word listed
  rw [eq_of_beq same] at letter
  obtain ⟨c, member, lower⟩ := List.mem_map.mp letter
  have goesOn := List.all_eq_true.mp inside c member
  rw [toLower_of_continuesNumber goesOn] at lower
  rw [lower] at goesOn
  exact absurd goesOn (by decide)

/-- Neither an exponent nor a special word is made of digits and dots. -/
theorem isDecimal_eq_isMantissa {text : List Char}
    (inside : (unsigned text).all continuesNumber = true) :
    isDecimal text = isMantissa (unsigned text) := by
  have plain (c : Char) (member : c ∈ unsigned text) : (!isExponentMark c) = true := by
    have goesOn := List.all_eq_true.mp inside c member
    have small : c ≠ 'e' := by rintro rfl; revert goesOn; decide
    have great : c ≠ 'E' := by rintro rfl; revert goesOn; decide
    simp [isExponentMark, small, great]
  have taken := List.takeWhile_eq_self_iff.mpr plain
  have left := List.dropWhile_eq_nil_iff.mpr plain
  simp only [isDecimal, taken, left, not_isSpecialNumber inside, Bool.or_false]

theorem count_dot_eq_zero_iff {text : List Char} (inside : text.all continuesNumber = true) :
    text.count '.' = 0 ↔ text.all Char.isDigit = true := by
  rw [List.count_eq_zero, List.all_eq_true]
  constructor
  · intro dotless c member
    refine (Bool.or_eq_true_iff.mp (List.all_eq_true.mp inside c member)).resolve_right fun dot => ?_
    exact dotless (eq_of_beq dot ▸ member)
  · intro digits member
    exact absurd (digits '.' member) (by decide)

theorem any_isDigit {text : List Char} (digits : text.all Char.isDigit = true) :
    text.any Char.isDigit = !text.isEmpty := by
  cases text with
  | nil => rfl
  | cons c rest => simp [(Bool.and_eq_true_iff.mp digits).1]

theorem isMantissa_iff {text : List Char} (inside : text.all continuesNumber = true) :
    isMantissa text = true ↔ text.any Char.isDigit = true ∧ text.count '.' ≤ 1 := by
  have parts := List.takeWhile_append_dropWhile (p := Char.isDigit) (l := text)
  have digits := List.all_takeWhile (p := Char.isDigit) (l := text)
  have ended := dropWhile_ends Char.isDigit text
  unfold isMantissa
  generalize text.takeWhile Char.isDigit = whole at *
  generalize text.dropWhile Char.isDigit = behind at *
  subst parts
  obtain ⟨wholeInside, behindInside⟩ : whole.all continuesNumber = true ∧
      behind.all continuesNumber = true := by simpa using inside
  have dotless := (count_dot_eq_zero_iff wholeInside).mpr digits
  cases behind with
  | nil => simp [any_isDigit digits, dotless]
  | cons c fraction =>
    obtain ⟨goesOn, fractionInside⟩ := Bool.and_eq_true_iff.mp behindInside
    obtain rfl : c = '.' :=
      eq_of_beq ((Bool.or_eq_true_iff.mp goesOn).resolve_left (by simp [ended c rfl]))
    have dots : (whole ++ '.' :: fraction).count '.' ≤ 1 ↔ fraction.all Char.isDigit = true := by
      rw [← count_dot_eq_zero_iff fractionInside, List.count_append, List.count_cons_self, dotless]
      omega
    change ((!whole.isEmpty || !fraction.isEmpty) && fraction.all Char.isDigit) = true ↔ _
    -- Both sides ask that no second dot follows. What is left is on which side of it a digit stands.
    rw [dots, Bool.and_eq_true_iff, and_congr_left_iff]
    intro rest
    simp [any_isDigit digits, any_isDigit rest]

theorem isDecimal_of_isWhole {text : List Char} (whole : isWhole text = true) :
    isDecimal text = true := by
  obtain ⟨some, digits⟩ := Bool.and_eq_true_iff.mp whole
  have inside := all_continuesNumber digits
  have dotless := (count_dot_eq_zero_iff inside).mpr digits
  rw [isDecimal_eq_isMantissa inside, isMantissa_iff inside, any_isDigit digits, dotless]
  exact ⟨some, Nat.zero_le 1⟩

end Text

namespace Lexeme

theorem numberToken_of_wholeValue? {text : List Char} {value : Int}
    (whole : Text.wholeValue? text = some value) :
    numberToken text = if Text.Fits64 value then .integer else .decimal := by
  have decimal := Text.isDecimal_of_isWhole (Text.isWhole_of_wholeValue? whole)
  simp only [numberToken, Text.isInteger64_iff whole, decimal, if_true]

theorem exists_run_of_isWhole {text : List Char} (whole : Text.isWhole text = true) :
    ∃ first run, text = first :: run ∧ startsNumber first = true ∧
      run.all continuesNumber = true := by
  obtain ⟨some, all⟩ := Bool.and_eq_true_iff.mp whole
  unfold Text.unsigned at some all
  split at all
  · exact ⟨_, _, rfl, rfl, all_continuesNumber all⟩
  · exact ⟨_, _, rfl, rfl, all_continuesNumber all⟩
  · cases text with
    | nil => simp at some
    | cons first run =>
      obtain ⟨digit, others⟩ := Bool.and_eq_true_iff.mp all
      exact ⟨first, run, rfl, by simp [startsNumber, digit], all_continuesNumber others⟩

variable {first : Char} {run : List Char}

theorem unsigned_continuesNumber (starts : startsNumber first = true)
    (inside : run.all continuesNumber = true) :
    (Text.unsigned (first :: run)).all continuesNumber = true := by
  unfold Text.unsigned
  split
  · next same => exact (List.cons.inj same).2 ▸ inside
  · next same => exact (List.cons.inj same).2 ▸ inside
  · next plus minus =>
    have digit : first.isDigit = true := by
      have unlike : first ≠ '+' ∧ first ≠ '-' :=
        ⟨fun same => plus run (same ▸ rfl), fun same => minus run (same ▸ rfl)⟩
      simpa [startsNumber, unlike] using starts
    simp [continuesNumber, digit] at inside ⊢
    exact inside

/-- A number is an integer within 64 bits, else a decimal number if it has a digit and one dot at
most, and else it is illegal. -/
theorem numberToken_iff (starts : startsNumber first = true)
    (inside : run.all continuesNumber = true) :
    (numberToken (first :: run) = .integer ↔ Text.Whole64 (first :: run)) ∧
    (numberToken (first :: run) = .decimal ↔
      ¬ Text.Whole64 (first :: run) ∧ Text.Pointed (first :: run)) ∧
    (numberToken (first :: run) = .illegal ↔
      ¬ Text.Whole64 (first :: run) ∧ ¬ Text.Pointed (first :: run)) := by
  have body := unsigned_continuesNumber starts inside
  have whole : Text.isInteger64 (first :: run) = true ↔ Text.Whole64 (first :: run) :=
    Text.isInteger64_eq_true_iff
  have pointed : Text.isDecimal (first :: run) = true ↔ Text.Pointed (first :: run) := by
    rw [Text.isDecimal_eq_isMantissa body, Text.isMantissa_iff body]
    rfl
  rw [← whole, ← pointed, numberToken]
  cases Text.isInteger64 (first :: run) <;> cases Text.isDecimal (first :: run) <;> simp

example : (["-7", "+.", "5.", "1.2.3", "9223372036854775808"].map fun text =>
    numberToken text.toList) = [.integer, .illegal, .decimal, .illegal, .decimal] := by decide

end Lexeme

end OwlFunctional
