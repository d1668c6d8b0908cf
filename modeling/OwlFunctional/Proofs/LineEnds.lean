import OwlFunctional.Proofs.Exactness
import OwlFunctional.Proofs.Gaps

/-! The lines of a text, as they show in its lexemes.

A line end is a lexeme of its own, or it stands inside of a string. A point between two lexemes
divides the lexemes as it divides the text, so the lexemes before it tell how many lines ended and
what stands on the line that did not.
-/

set_option autoImplicit false

namespace OwlFunctional

/-! ## Lines of a text -/

namespace Text

open Lexeme (isLineEnd)

/-- How many lines end in a text: a carriage return right before a line feed makes one line end with
it. -/
def lineEnds : List Char → Nat
  | [] => 0
  | c :: rest => lineEnds rest + if c = '\n' ∨ c = '\r' ∧ rest.head? ≠ some '\n' then 1 else 0

def lastLine (text : List Char) : List Char := text.rtakeWhile fun c => !isLineEnd c

theorem lineEnds_append {first second : List Char}
    (apart : first.getLast? = some '\r' → second.head? ≠ some '\n') :
    lineEnds (first ++ second) = lineEnds first + lineEnds second := by
  induction first with
  | nil => simp [lineEnds]
  | cons c rest ih =>
    have others : lineEnds (rest ++ second) = lineEnds rest + lineEnds second := by
      cases rest with
      | nil => simp [lineEnds]
      | cons d rest => exact ih (by simpa using apart)
    -- Only the last character of the first text looks at the second one.
    have here : (if c = '\n' ∨ c = '\r' ∧ (rest ++ second).head? ≠ some '\n' then 1 else 0) =
        if c = '\n' ∨ c = '\r' ∧ rest.head? ≠ some '\n' then 1 else 0 := by
      cases rest with
      | nil =>
        by_cases back : c = '\r'
        · simp [back, apart (by simp [back])]
        · simp [back]
      | cons d rest => rfl
    rw [List.cons_append, lineEnds, lineEnds, others, here, Nat.add_right_comm]

theorem lineEnds_eq_zero_iff {text : List Char} :
    lineEnds text = 0 ↔ ∀ c ∈ text, isLineEnd c = false := by
  induction text with
  | nil => simp [lineEnds]
  | cons c rest ih =>
    rw [lineEnds, Nat.add_eq_zero_iff, ih, and_comm, List.forall_mem_cons]
    refine and_congr_left fun others => ?_
    have unfed : rest.head? ≠ some '\n' := fun feed => by
      simpa [isLineEnd] using others '\n' (List.mem_of_head? feed)
    simp [isLineEnd, unfed]

theorem lastLine_append {ended line : List Char}
    (ends : ∀ c ∈ ended.getLast?, isLineEnd c = true) (plain : ∀ c ∈ line, isLineEnd c = false) :
    lastLine (ended ++ line) = line := by
  have inside : line.reverse.all (fun c => !isLineEnd c) = true := by simpa using plain
  have before : ∀ c ∈ ended.reverse.head?, (!isLineEnd c) = false := by simpa using ends
  rw [lastLine, List.rtakeWhile, List.reverse_append, Lexeme.takeWhile_run inside before,
    List.reverse_reverse]

end Text

/-! ## Lines in lexemes -/

namespace Lexeme

theorem not_isLineEnd {continues : Char → Bool} (feed : continues '\n' = false)
    (back : continues '\r' = false) {c : Char} (here : continues c = true) :
    isLineEnd c = false := by
  have notFeed : c ≠ '\n' := by rintro rfl; simp [feed] at here
  have notBack : c ≠ '\r' := by rintro rfl; simp [back] at here
  simp [isLineEnd, notFeed, notBack]

theorem Exact.plain {lexeme : Lexeme} {own rest : List Char} (exact : Exact lexeme own rest)
    (line : lexeme.token ≠ .eol) (string : lexeme.token ≠ .string) :
    ∀ c ∈ own, isLineEnd c = false := by
  have run {continues : Char → Bool} {first : Char} {inside : List Char}
      (starts : isLineEnd first = false) (feed : continues '\n' = false)
      (back : continues '\r' = false) (all : inside.all continues = true) :
      ∀ c ∈ first :: inside, isLineEnd c = false :=
    List.forall_mem_cons.mpr
      ⟨starts, fun c member => not_isLineEnd feed back (List.all_eq_true.mp all c member)⟩
  cases exact with
  | blank starts runs => exact run (not_isLineEnd rfl rfl starts) rfl rfl runs.inside
  | lineFeed => exact absurd rfl line
  | carriageReturn => exact absurd rfl line
  | bothLineEnds => exact absurd rfl line
  | comment runs => exact run rfl rfl rfl runs.inside
  | iri all =>
    exact List.forall_mem_append.mpr
      ⟨run rfl (by decide) (by decide) all, List.forall_mem_singleton.mpr rfl⟩
  | openIri all => exact run rfl (by decide) (by decide) all
  | string => exact absurd rfl string
  | openString => exact absurd rfl string
  | doubleCaret => simp [isLineEnd]
  | caret => simp [isLineEnd]
  | number starts runs => exact run (not_isLineEnd rfl rfl starts) rfl rfl runs.inside
  | word starts runs =>
    exact run (not_isLineEnd (by decide) (by decide) starts) (by decide) (by decide) runs.inside
  | @symbol first _ unmarked =>
    have notFeed : first ≠ '\n' := by rintro rfl; exact unmarked (by decide)
    have notBack : first ≠ '\r' := by rintro rfl; exact unmarked (by decide)
    simp [isLineEnd, notFeed, notBack]

theorem Exact.of_eol {lexeme : Lexeme} {own rest : List Char} (exact : Exact lexeme own rest)
    (line : lexeme.token = .eol) :
    own = ['\n'] ∨ own = ['\r'] ∧ rest.head? ≠ some '\n' ∨ own = ['\r', '\n'] := by
  cases exact with
  | lineFeed => exact .inl rfl
  | carriageReturn alone => exact .inr (.inl ⟨rfl, alone⟩)
  | bothLineEnds => exact .inr (.inr rfl)
  | @number first run =>
    rcases numberToken_cases (first :: run) with ⟨kind, -⟩ | ⟨kind, -⟩ | kind <;> simp [kind] at line
  | word _ _ names => exact absurd (Token.names_iff.mp names ▸ line) (ofWord_ne rfl _)
  | symbol =>
    unfold symbolToken at line
    split at line <;> simp at line
  | _ => simp at line

def quotedLineEnds (lexemes : List Lexeme) : Nat :=
  ((lexemes.filter fun lexeme => lexeme.token = .string).map fun lexeme =>
    Text.lineEnds lexeme.literal.toList).sum

theorem quotedLineEnds_eq_zero {lexemes : List Lexeme}
    (unquoted : ∀ lexeme ∈ lexemes, lexeme.token ≠ .string) : quotedLineEnds lexemes = 0 := by
  have none : lexemes.filter (fun lexeme => lexeme.token = .string) = [] :=
    List.filter_eq_nil_iff.mpr (by simpa using unquoted)
  rw [quotedLineEnds, none]
  rfl

theorem quotedLineEnds_append (first second : List Lexeme) :
    quotedLineEnds (first ++ second) = quotedLineEnds first + quotedLineEnds second := by
  simp [quotedLineEnds]

theorem quotedLineEnds_cons (lexeme : Lexeme) (others : List Lexeme) :
    quotedLineEnds (lexeme :: others) =
      (if lexeme.token = .string then Text.lineEnds lexeme.literal.toList else 0) +
        quotedLineEnds others := by
  by_cases string : lexeme.token = .string
  · simp [quotedLineEnds, string]
  · simp [quotedLineEnds, string]

theorem Exact.lineEnds_append {lexeme : Lexeme} {own rest : List Char}
    (exact : Exact lexeme own rest) :
    Text.lineEnds (own ++ rest) = (if lexeme.token = .eol then 1 else 0) +
      (if lexeme.token = .string then Text.lineEnds lexeme.literal.toList else 0) +
      Text.lineEnds rest := by
  by_cases line : lexeme.token = .eol
  · rw [if_pos line, if_neg (by simp [line])]
    rcases exact.of_eol line with rfl | ⟨rfl, alone⟩ | rfl
    · simp [Text.lineEnds, Nat.add_comm]
    · simp [Text.lineEnds, alone, Nat.add_comm]
    · simp [Text.lineEnds, Nat.add_comm]
  · by_cases string : lexeme.token = .string
    · rw [if_neg line, if_pos string]
      rcases exact.own_eq with rfl | ⟨-, rfl, rfl⟩
      · have closed : Text.lineEnds (lexeme.literal.toList ++ '"' :: rest) =
            Text.lineEnds lexeme.literal.toList + Text.lineEnds ('"' :: rest) :=
          Text.lineEnds_append (by simp)
        simp [inText, string, Text.lineEnds, closed]
      · simp [Text.lineEnds]
    · have plain := exact.plain line string
      have apart : own.getLast? ≠ some '\r' := fun last => by
        simpa [isLineEnd] using plain '\r' (List.mem_of_getLast? last)
      rw [Text.lineEnds_append fun last => absurd last apart, Text.lineEnds_eq_zero_iff.mpr plain]
      simp [line, string]

/-- Each line end of a text is a lexeme or stands inside of a string. -/
theorem lineEnds_eq (text : List Char) :
    (lexemesOf text).countP (fun lexeme => lexeme.token = .eol) + quotedLineEnds (lexemesOf text) =
      Text.lineEnds text := by
  induction text using cut_induction with
  | nil => rfl
  | cons first rest ih =>
    obtain ⟨own, exact, same⟩ := cut_takes first rest
    rw [lexemesOf_cons, quotedLineEnds_cons, List.countP_cons, same, exact.lineEnds_append, ← ih]
    simp only [decide_eq_true_eq]
    omega

theorem plain_of_unended {text : List Char}
    (unended : ∀ lexeme ∈ lexemesOf text, lexeme.token ≠ .eol)
    (none : quotedLineEnds (lexemesOf text) = 0) : ∀ c ∈ text, isLineEnd c = false := by
  have whole : (lexemesOf text).countP (fun lexeme => lexeme.token = .eol) = 0 :=
    List.countP_eq_zero.mpr (by simpa using unended)
  exact Text.lineEnds_eq_zero_iff.mp (by rw [← lineEnds_eq, whole, none])

/-! ## Points between lexemes -/

/-- A point of a text stands between two lexemes, before all of them or after all of them: the
texts before and after it have the lexemes of the whole text. -/
def Boundary (text before : List Char) : Prop :=
  ∃ after, text = before ++ after ∧ lexemesOf text = lexemesOf before ++ lexemesOf after

theorem exists_boundary_of_append {text : List Char} {taken rest : List Lexeme}
    (divided : lexemesOf text = taken ++ rest) :
    ∃ before, Boundary text before ∧ lexemesOf before = taken := by
  obtain ⟨before, after, whole, rfl, rfl⟩ := exists_texts_of_append divided
  exact ⟨before, ⟨after, whole, divided⟩, rfl⟩

theorem isLineEnd_getLast {text : List Char}
    (line : ∀ lexeme ∈ (lexemesOf text).getLast?, lexeme.token = .eol) :
    ∀ c ∈ text.getLast?, isLineEnd c = true := by
  induction text using cut_induction with
  | nil => simp
  | cons first rest ih =>
    obtain ⟨own, exact, same⟩ := cut_takes first rest
    rw [lexemesOf_cons] at line
    rw [same]
    -- The last lexeme of all is the first one only if nothing is left after it.
    generalize (cut first rest).lexeme = lexeme at exact line
    generalize (cut first rest).rest = left at exact line ih
    cases left with
    | nil =>
      rw [List.append_nil]
      rcases exact.of_eol (line lexeme rfl) with rfl | ⟨rfl, -⟩ | rfl <;> simp [isLineEnd]
    | cons c others =>
      rw [List.getLast?_append_of_ne_nil own (List.cons_ne_nil c others)]
      refine ih fun last found => line last ?_
      rw [List.getLast?_cons, Option.mem_def.mp found]
      rfl

theorem length_textOf_le (text : List Char) :
    (textOf (lexemesOf text)).length +
      (lexemesOf text).countP (fun lexeme => lexeme.token = .string) ≤ text.length := by
  induction text using cut_induction with
  | nil => simp [textOf]
  | cons first rest ih =>
    obtain ⟨own, exact, same⟩ := cut_takes first rest
    have one : (cut first rest).lexeme.literal.toList.length +
        (if (cut first rest).lexeme.token = .string then 1 else 0) ≤ own.length := by
      rcases exact.own_eq with rfl | ⟨string, -, rfl⟩
      · unfold inText
        split <;> simp
      · simp [string]
    rw [lexemesOf_cons, same, List.countP_cons]
    simp only [textOf, List.flatMap_cons, List.length_append, decide_eq_true_eq] at ih ⊢
    omega

end Lexeme

end OwlFunctional
