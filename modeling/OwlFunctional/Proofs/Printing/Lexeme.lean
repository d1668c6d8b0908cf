import OwlFunctional.Expression
import OwlFunctional.Proofs.Cursor
import OwlFunctional.Proofs.Scanning

/-! Written forms fall into the lexemes they were written from. -/

set_option autoImplicit false

namespace OwlFunctional

/-! ## The first character of a lexeme -/

namespace Text

theorem startsWord_of_isDigit {c : Char} (digit : c.isDigit = true) : startsWord c = false := by
  have range : 48 ≤ c.toNat ∧ c.toNat ≤ 57 := Char.isDigit_iff_toNat.mp digit
  have alpha : c.isAlpha = false := by
    rw [Bool.eq_false_iff]
    change ¬ (decide (65 ≤ c.val ∧ c.val ≤ 90) ||
      (decide (97 ≤ c.val) && decide (c.val ≤ 122))) = true
    simp only [Bool.or_eq_true, Bool.and_eq_true, decide_eq_true_eq, UInt32.le_iff_toNat_le]
    change ¬ (65 ≤ c.toNat ∧ c.toNat ≤ 90 ∨ 97 ≤ c.toNat ∧ c.toNat ≤ 122)
    omega
  have letter : isLetter c = false := by
    rw [isLetter, if_pos (by omega), alpha]
  have mark : (c == '_') = false := by
    rw [beq_eq_false_iff_ne]
    rintro rfl
    simp at range
  rw [startsWord, letter, mark]
  rfl

end Text

namespace Lexeme

theorem startsNumber_of_startsWord {c : Char} (starts : Text.startsWord c = true) :
    startsNumber c = false := by
  have digit : c.isDigit = false := by
    rw [Bool.eq_false_iff]
    intro digit
    rw [Text.startsWord_of_isDigit digit] at starts
    simp at starts
  have plus : c ≠ '+' := by rintro rfl; revert starts; decide
  have minus : c ≠ '-' := by rintro rfl; revert starts; decide
  simp [startsNumber, plus, minus, digit]

theorem continuesNumber_of_startsWord {c : Char} (starts : Text.startsWord c = true) :
    continuesNumber c = false := by
  have sign := startsNumber_of_startsWord starts
  simp only [startsNumber, Bool.or_eq_false_iff] at sign
  have point : c ≠ '.' := by rintro rfl; revert starts; decide
  simp [continuesNumber, sign.2, point]

/-- The characters that start white space, a line end, a comment, a string, a caret or an
identifier in brackets. -/
def marks : List Char := [' ', '\t', '\n', '\r', '"', '#', '^', '<']

/-- All other characters start a number, a word or a symbol. -/
theorem cut_of_unmarked {first : Char} (unmarked : first ∉ marks) (rest : List Char) :
    cut first rest =
      if startsNumber first then cutRun numberToken continuesNumber first rest
      else if Text.startsWord first then
        cutRun (fun text => .ofWord (.ofList text)) Text.continuesWord first rest
      else .shut (symbolToken first) [first] rest := by
  simp only [marks, List.mem_cons, List.not_mem_nil, or_false, not_or] at unmarked
  obtain ⟨space, tab, feed, back, quote, hash, caret, bracket⟩ := unmarked
  simp [cut, isBlank, isLineEnd, space, tab, feed, back, quote, hash, caret, bracket]

theorem not_mem_marks {starts : Char → Bool} {first : Char} (here : starts first = true)
    (never : marks.any starts = false) : first ∉ marks := fun member =>
  List.any_eq_false.mp never first member here

theorem cut_word {first : Char} (starts : Text.startsWord first = true) (rest : List Char) :
    cut first rest = cutRun (fun text => .ofWord (.ofList text)) Text.continuesWord first rest := by
  rw [cut_of_unmarked (not_mem_marks starts (by decide)), startsNumber_of_startsWord starts, starts]
  rfl

theorem cut_number {first : Char} (starts : startsNumber first = true) (rest : List Char) :
    cut first rest = cutRun numberToken continuesNumber first rest := by
  rw [cut_of_unmarked (not_mem_marks starts (by decide)), starts]
  rfl

theorem ofWord_isTrivia (text : String) : (Token.ofWord text).isTrivia = false := by
  have isWord := Token.ofWord_isWord text
  cases kind : Token.ofWord text <;> simp [kind, Token.isWord, Token.isTrivia] at isWord ⊢

/-! ## What follows a lexeme -/

/-- A character that goes on with no word, number or language tag. -/
def separates (c : Char) : Bool := !Text.continuesWord c && !continuesNumber c && c != '-'

/-- A text that ends a word, a number or a language tag before it. -/
def Stops (after : List Char) : Prop := ∀ c ∈ after.head?, separates c = true

theorem Stops.cons {c : Char} (ends : separates c = true) (after : List Char) :
    Stops (c :: after) := by
  simpa [Stops] using ends

theorem Stops.ends {after : List Char} (stops : Stops after) :
    ∀ c ∈ after.head?, Text.continuesWord c = false ∧ continuesNumber c = false := by
  intro c member
  have ends := stops c member
  simp only [separates, Bool.and_eq_true, Bool.not_eq_true'] at ends
  exact ends.1

section

variable {continues : Char → Bool} {run after : List Char}

theorem takeWhile_run (inside : run.all continues = true)
    (ends : ∀ c ∈ after.head?, continues c = false) :
    (run ++ after).takeWhile continues = run := by
  rw [List.takeWhile_append_of_pos (List.all_eq_true.mp inside)]
  cases after with
  | nil => simp
  | cons c after => simp [ends c rfl]

theorem dropWhile_run (inside : run.all continues = true)
    (ends : ∀ c ∈ after.head?, continues c = false) :
    (run ++ after).dropWhile continues = after := by
  rw [List.dropWhile_append_of_pos (List.all_eq_true.mp inside)]
  cases after with
  | nil => rfl
  | cons c after => simp [ends c rfl]

theorem cutRun_append {token : List Char → Token} {first : Char}
    (inside : run.all continues = true) (ends : ∀ c ∈ after.head?, continues c = false) :
    cutRun token continues first (run ++ after) =
      .ajar (token (first :: run)) (first :: run) after := by
  rw [cutRun, takeWhile_run inside ends, dropWhile_run inside ends]

end

theorem lexemesOf_word {first : Char} {run after : List Char}
    (starts : Text.startsWord first = true) (inside : run.all Text.continuesWord = true)
    (stops : ∀ c ∈ after.head?, Text.continuesWord c = false) :
    lexemesOf (first :: run ++ after) =
      ⟨.ofWord (.ofList (first :: run)), .ofList (first :: run)⟩ :: lexemesOf after := by
  rw [List.cons_append, lexemesOf_cons, cut_word starts, cutRun_append inside stops]
  rfl

theorem lexemesOf_number {first : Char} {run after : List Char}
    (starts : startsNumber first = true) (inside : run.all continuesNumber = true)
    (stops : ∀ c ∈ after.head?, continuesNumber c = false) :
    lexemesOf (first :: run ++ after) =
      ⟨numberToken (first :: run), .ofList (first :: run)⟩ :: lexemesOf after := by
  rw [List.cons_append, lexemesOf_cons, cut_number starts, cutRun_append inside stops]
  rfl

theorem cut_iri {inside : List Char} (allowed : inside.all insideIri = true) (rest : List Char) :
    cut '<' (inside ++ ['>'] ++ rest) = .shut .iri ('<' :: inside ++ ['>']) rest := by
  have ends : ∀ c ∈ ('>' :: rest).head?, insideIri c = false := by simp [insideIri]
  have dropped := dropWhile_run allowed ends
  have taken := takeWhile_run allowed ends
  unfold insideIri at dropped taken
  rw [List.append_assoc, List.singleton_append]
  change cutIri (inside ++ '>' :: rest) = _
  simp only [cutIri, dropped, taken]

theorem lexemesOf_iri {inside : List Char} (allowed : inside.all insideIri = true)
    (after : List Char) :
    lexemesOf ('<' :: inside ++ '>' :: after) =
      ⟨.iri, .ofList ('<' :: inside ++ ['>'])⟩ :: lexemesOf after := by
  have text : inside ++ '>' :: after = inside ++ ['>'] ++ after := by simp
  rw [List.cons_append, lexemesOf_cons, text, cut_iri allowed]
  rfl

theorem lexemesOf_string (value after : List Char) :
    lexemesOf ('"' :: (Text.escape value ++ '"' :: after)) =
      ⟨.string, .ofList (Text.escape value)⟩ :: lexemesOf after := by
  have cutOff : cut '"' (Text.escape value ++ '"' :: after) =
      .shut .string (Text.escape value) after := by
    change cutString (Text.escape value ++ '"' :: after) = _
    rw [cutString, Text.splitQuoted_escape]
  rw [lexemesOf_cons, cutOff]
  rfl

/-- White space is trivia, also where more of it follows. -/
theorem significant_blank (after : List Char) :
    significant (lexemesOf (' ' :: after)) = significant (lexemesOf after) := by
  have cutOff (text : List Char) : cut ' ' text = cutRun (fun _ => .blank) isBlank ' ' text := rfl
  rw [lexemesOf_cons, cutOff, significant_cons_of_trivia rfl]
  change significant (lexemesOf (after.dropWhile isBlank)) = _
  cases after with
  | nil => rfl
  | cons c rest =>
    cases blank : isBlank c with
    | false => simp [blank]
    | true =>
      have first : cut c rest = cutRun (fun _ => .blank) isBlank c rest := by
        rw [cut, if_pos blank]
      rw [List.dropWhile_cons_of_pos blank, lexemesOf_cons, first, significant_cons_of_trivia rfl]
      rfl

theorem significant_lineEnd (after : List Char) :
    significant (lexemesOf ('\n' :: after)) = significant (lexemesOf after) := by
  rw [lexemesOf_cons]
  exact significant_cons_of_trivia rfl _

end Lexeme

end OwlFunctional
