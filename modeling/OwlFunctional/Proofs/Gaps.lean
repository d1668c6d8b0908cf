import Mathlib.Data.List.TakeWhile
import OwlFunctional.Proofs.Cutting
import OwlFunctional.Proofs.Spelling

/-! Tokens and the gaps between them: the white space, line ends and comments of a text.

The lexemes of a text fall into tokens and trivia. The trivia between two tokens is known by its
text, since it is cut in the same way whatever follows.
-/

set_option autoImplicit false

namespace OwlFunctional

/-! ## Tokens and gaps -/

namespace Lexeme

open Spelling (ContinuesTag)

def tokensIn (input : List Lexeme) : List Lexeme :=
  input.filter fun lexeme => !lexeme.token.isTrivia

/-- The trivia before each token, and after the last one. -/
def gapsIn (input : List Lexeme) : List (List Lexeme) :=
  input.splitOnP fun lexeme => !lexeme.token.isTrivia

def textOf (lexemes : List Lexeme) : List Char :=
  lexemes.flatMap fun lexeme => lexeme.literal.toList

/-- The text before the token with the given index, or after the last one. -/
def gapAt (input : List Lexeme) (index : Nat) : List Char :=
  textOf ((gapsIn input).getD index [])

def leading (input : List Lexeme) : List Lexeme :=
  input.takeWhile fun lexeme => lexeme.token.isTrivia

/-- A hyphen that is no part of a number. -/
def hyphen : Lexeme := ⟨.illegal, "-"⟩

instance (lexeme : Lexeme) : Decidable (ContinuesTag lexeme) :=
  inferInstanceAs (Decidable (_ ∨ _ ∧ _))

/-- The inputs have the same text before every token that could go on with a language tag, and after
every hyphen. -/
def SameGaps (first second : List Lexeme) : Prop :=
  ∀ index < (tokensIn first).length, ∀ lexeme ∈ (tokensIn first)[index]?,
    (ContinuesTag lexeme → gapAt first index = gapAt second index) ∧
    (lexeme = hyphen → gapAt first (index + 1) = gapAt second (index + 1))

instance (first second : List Lexeme) : Decidable (SameGaps first second) :=
  inferInstanceAs (Decidable (∀ index < _, ∀ lexeme ∈ _, _ ∧ _))

theorem not_trivia_of_continuesTag {lexeme : Lexeme} (goesOn : ContinuesTag lexeme) :
    lexeme.token.isTrivia = false := by
  rcases goesOn with rfl | ⟨kind, -⟩
  · rfl
  · rw [kind]
    rfl

end Lexeme

open Lexeme

theorem leading_append_significant (input : List Lexeme) :
    leading input ++ significant input = input :=
  List.takeWhile_append_dropWhile

theorem leading_cons_of_trivia {lexeme : Lexeme} (trivia : lexeme.token.isTrivia = true)
    (input : List Lexeme) : leading (lexeme :: input) = lexeme :: leading input :=
  List.takeWhile_cons_of_pos trivia

theorem leading_cons {lexeme : Lexeme} (telling : lexeme.token.isTrivia = false)
    (input : List Lexeme) : leading (lexeme :: input) = [] :=
  List.takeWhile_cons_of_neg (by simp [telling])

theorem leading_significant (input : List Lexeme) : leading (significant input) = [] := by
  cases found : significant input with
  | nil => rfl
  | cons lexeme rest => exact leading_cons (not_trivia_of_significant found) rest

theorem eq_significant_of_leading {input : List Lexeme} (none : leading input = []) :
    significant input = input := by
  simpa [none] using leading_append_significant input

theorem cons_of_leading {lexeme : Lexeme} {input gap : List Lexeme}
    (found : leading input = lexeme :: gap) :
    lexeme.token.isTrivia = true ∧ ∃ rest, input = lexeme :: rest ∧ leading rest = gap := by
  cases input with
  | nil => simp [leading] at found
  | cons first input =>
    cases trivia : first.token.isTrivia with
    | true =>
      rw [leading_cons_of_trivia trivia] at found
      obtain ⟨rfl, rfl⟩ := List.cons.inj found
      exact ⟨trivia, input, rfl, rfl⟩
    | false => simp [leading_cons trivia] at found

theorem gapsIn_cons_of_trivia {lexeme : Lexeme} (trivia : lexeme.token.isTrivia = true)
    (input : List Lexeme) : gapsIn (lexeme :: input) = (gapsIn input).modifyHead (lexeme :: ·) := by
  rw [gapsIn, List.splitOnP_cons_eq_if_modifyHead, if_neg (by simp [trivia])]
  rfl

theorem gapsIn_cons {lexeme : Lexeme} (telling : lexeme.token.isTrivia = false)
    (input : List Lexeme) : gapsIn (lexeme :: input) = [] :: gapsIn input := by
  rw [gapsIn, List.splitOnP_cons_eq_if_modifyHead, if_pos (by simp [telling])]
  rfl

theorem tokensIn_cons_of_trivia {lexeme : Lexeme} (trivia : lexeme.token.isTrivia = true)
    (input : List Lexeme) : tokensIn (lexeme :: input) = tokensIn input :=
  List.filter_cons_of_neg (by simp [trivia])

theorem tokensIn_cons {lexeme : Lexeme} (telling : lexeme.token.isTrivia = false)
    (input : List Lexeme) : tokensIn (lexeme :: input) = lexeme :: tokensIn input :=
  List.filter_cons_of_pos (by simp [telling])

theorem Takes.tokensIn {lexeme : Lexeme} {input rest : List Lexeme}
    (takes : Takes lexeme input rest) : tokensIn input = lexeme :: tokensIn rest := by
  induction input with
  | nil => simp [Takes] at takes
  | cons first input ih =>
    cases trivia : first.token.isTrivia with
    | true =>
      rw [Takes, significant_cons_of_trivia trivia] at takes
      rw [tokensIn_cons_of_trivia trivia, ih takes]
    | false =>
      rw [Takes, significant_cons trivia] at takes
      obtain ⟨rfl, rfl⟩ := List.cons.inj takes
      exact tokensIn_cons trivia input

theorem Takes.gapsIn {lexeme : Lexeme} {input rest : List Lexeme}
    (takes : Takes lexeme input rest) : gapsIn input = leading input :: gapsIn rest := by
  induction input with
  | nil => simp [Takes] at takes
  | cons first input ih =>
    cases trivia : first.token.isTrivia with
    | true =>
      rw [Takes, significant_cons_of_trivia trivia] at takes
      rw [gapsIn_cons_of_trivia trivia, leading_cons_of_trivia trivia, ih takes]
      rfl
    | false =>
      rw [Takes, significant_cons trivia] at takes
      rw [gapsIn_cons trivia, leading_cons trivia, (List.cons.inj takes).2]

theorem gapAt_zero (input : List Lexeme) : gapAt input 0 = textOf (leading input) := by
  have head : (gapsIn input).getD 0 [] = leading input := by
    induction input with
    | nil => rfl
    | cons lexeme input ih =>
      cases trivia : lexeme.token.isTrivia with
      | true =>
        rw [gapsIn_cons_of_trivia trivia, leading_cons_of_trivia trivia, ← ih]
        cases gaps : gapsIn input with
        | nil => exact absurd gaps (List.splitOnP_ne_nil _ _)
        | cons gap gaps => rfl
      | false =>
        rw [gapsIn_cons trivia, leading_cons trivia]
        rfl
  rw [gapAt, head]

theorem Takes.gapAt {lexeme : Lexeme} {input rest : List Lexeme} (takes : Takes lexeme input rest)
    (index : Nat) : gapAt input (index + 1) = gapAt rest index := by
  rw [Lexeme.gapAt, takes.gapsIn]
  rfl

theorem takes_of_tokensIn {lexeme : Lexeme} {input others : List Lexeme}
    (tokens : tokensIn input = lexeme :: others) :
    ∃ rest, Takes lexeme input rest ∧ tokensIn rest = others := by
  cases found : significant input with
  | nil =>
    -- With trivia only there would be no tokens.
    have none : ∀ lexeme ∈ input, lexeme.token.isTrivia = true := by
      simpa [significant] using found
    have first : lexeme ∈ tokensIn input := tokens ▸ List.mem_cons_self
    rw [Lexeme.tokensIn, List.mem_filter] at first
    simp [none lexeme first.1] at first
  | cons other rest =>
    have takes : Takes other input rest := found
    rw [takes.tokensIn] at tokens
    obtain ⟨rfl, same⟩ := List.cons.inj tokens
    exact ⟨rest, takes, same⟩

theorem significant_of_tokensIn {input : List Lexeme} (none : tokensIn input = []) :
    significant input = [] := by
  cases found : significant input with
  | nil => rfl
  | cons lexeme rest =>
    have takes : Takes lexeme input rest := found
    simp [takes.tokensIn] at none

/-! ## The text of a gap -/

namespace Lexeme

theorem textOf_lexemesOf {text : List Char}
    (unquoted : ∀ lexeme ∈ lexemesOf text, lexeme.token ≠ .string) :
    textOf (lexemesOf text) = text := by
  have written : asText (lexemesOf text) = textOf (lexemesOf text) := by
    rw [asText, List.flatMap_congr fun lexeme member => by
      rw [inText, if_neg (unquoted lexeme member)], textOf]
  rw [← written]
  exact asText_lexemesOf fun lexeme last => unquoted lexeme (List.mem_of_getLast? last)

theorem lexemesOf_textOf_leading (text : List Char) :
    lexemesOf (textOf (leading (lexemesOf text))) = leading (lexemesOf text) := by
  obtain ⟨before, _, -, covered, -⟩ :=
    exists_texts_of_append (leading_append_significant (lexemesOf text)).symm
  have unquoted : ∀ lexeme ∈ lexemesOf before, lexeme.token ≠ .string := by
    intro lexeme member string
    rw [covered] at member
    simpa [string, Token.isTrivia] using List.mem_takeWhile_imp member
  rw [← covered, textOf_lexemesOf unquoted]

theorem leading_eq_of_textOf_eq {first second : List Char}
    (same : textOf (leading (lexemesOf first)) = textOf (leading (lexemesOf second))) :
    leading (lexemesOf first) = leading (lexemesOf second) := by
  rw [← lexemesOf_textOf_leading first, same, lexemesOf_textOf_leading]

/-- What is left of the lexemes of a text are the lexemes of a text. -/
theorem exists_text_of_suffix {text : List Char} {rest : List Lexeme}
    (suffix : rest <:+ lexemesOf text) : ∃ left, rest = lexemesOf left := by
  obtain ⟨_, divided⟩ := suffix
  obtain ⟨_, left, -, -, follow⟩ := exists_texts_of_append divided.symm
  exact ⟨left, follow.symm⟩

end Lexeme

/-! ## Pieces of a language tag -/

open Spelling (ContinuesTag)

namespace Stream

theorem subtag_absent {stream : Stream} (other : ¬ ContinuesTag stream.next) :
    stream.subtag = (.absent stream.position, stream.scan.2.unscan) := by
  have plain : ¬ stream.scan.1.lexeme = ⟨.illegal, "-"⟩ := fun joins => other (.inl joins)
  have unsigned : ¬ (stream.scan.1.token = .integer ∧
    stream.scan.1.literal.toList.head? = some '-') := fun negative => other (.inr negative)
  simp only [subtag]
  rw [if_neg plain, if_neg unsigned]
  rfl

theorem subtag_negative {stream : Stream} (goesOn : ContinuesTag stream.next)
    (other : stream.next ≠ hyphen) :
    stream.subtag = (.piece stream.next.literal, stream.scan.2) := by
  have plain : ¬ stream.scan.1.lexeme = ⟨.illegal, "-"⟩ := other
  have negative : stream.scan.1.token = .integer ∧
    stream.scan.1.literal.toList.head? = some '-' := goesOn.resolve_left plain
  simp only [subtag]
  rw [if_neg plain, if_pos negative]
  rfl

theorem subtag_hyphen {stream : Stream} (found : stream.next = hyphen) :
    stream.subtag =
      (if stream.scan.2.next.token.isWord || stream.scan.2.next.token = .integer then
        .piece ("-" ++ stream.scan.2.next.literal)
      else .broken stream.scan.2.scan.1, stream.scan.2.scan.2) := by
  have joins : stream.scan.1.lexeme = ⟨.illegal, "-"⟩ := found
  simp only [subtag]
  rw [if_pos joins]
  exact (apply_ite (·, stream.scan.2.scan.2) _ _ _).symm

end Stream

end OwlFunctional
