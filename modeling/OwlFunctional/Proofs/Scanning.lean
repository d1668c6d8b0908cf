import Mathlib.Data.List.Forall2
import OwlFunctional.Stream

/-! The lexemes of a text: they cover the text, and each of them has the form of its token. -/

set_option autoImplicit false

namespace OwlFunctional.Lexeme

/-- How a lexeme stands in a text. Only the quotes of a string are not part of its literal, and at
the end of a text the closing one may be missing. -/
inductive Written : Lexeme → List Char → Prop where
  | plain {token : Token} {text : List Char} : token ≠ .string → text ≠ [] →
      Written ⟨token, .ofList text⟩ text
  | quoted {inside : List Char} : Written ⟨.string, .ofList inside⟩ ('"' :: (inside ++ ['"']))
  | unclosed {inside : List Char} : Written ⟨.string, .ofList inside⟩ ('"' :: inside)

theorem Written.ne_nil {lexeme : Lexeme} {written : List Char} (stands : Written lexeme written) :
    written ≠ [] := by
  cases stands with
  | plain _ nonempty => exact nonempty
  | quoted => simp
  | unclosed => simp

/-- A cut takes a written lexeme off a text and leaves the rest of the text. -/
def Cut.Covers (cut : Cut) (text : List Char) : Prop :=
  ∃ written, Written cut.lexeme written ∧ text = written ++ cut.rest

theorem cutRun_covers {token : List Char → Token} {continues : Char → Bool} {first : Char}
    {rest : List Char} (unquoted : ∀ text, token text ≠ .string) :
    (cutRun token continues first rest).Covers (first :: rest) :=
  ⟨first :: rest.takeWhile continues, .plain (unquoted _) (by simp),
    by simp [cutRun, Cut.ajar, List.takeWhile_append_dropWhile]⟩

theorem cutLineEnd_covers {first : Char} {rest : List Char} (ends : isLineEnd first = true) :
    (cutLineEnd first rest).Covers (first :: rest) := by
  unfold cutLineEnd
  split
  · next feed => exact ⟨['\n'], .plain (by simp) (by simp), by simp [Cut.shut, feed]⟩
  · next other =>
    obtain rfl : first = '\r' := by simpa [isLineEnd, other] using ends
    split
    · exact ⟨['\r', '\n'], .plain (by simp) (by simp), rfl⟩
    · exact ⟨['\r'], .plain (by simp) (by simp), rfl⟩

theorem splitQuoted_covers (text : List Char) :
    text = (Text.splitQuoted text).1 ++
      match (Text.splitQuoted text).2 with
      | some rest => '"' :: rest
      | none => [] := by
  fun_induction Text.splitQuoted text with
  | case1 => rfl
  | case2 rest => rfl
  | case3 c rest inside after same ih =>
    rw [same] at ih
    simpa using ih
  | case4 c rest _ _ inside after same ih =>
    rw [same] at ih
    simpa using ih

theorem cutString_covers (rest : List Char) : (cutString rest).Covers ('"' :: rest) := by
  have parts := splitQuoted_covers rest
  unfold cutString
  split
  · next inside after same =>
    rw [same] at parts
    exact ⟨_, .quoted, by simpa [Cut.shut] using parts⟩
  · next inside same =>
    rw [same] at parts
    exact ⟨_, .unclosed, by simpa [Cut.ajar] using parts⟩

theorem cutCaret_covers (rest : List Char) : (cutCaret rest).Covers ('^' :: rest) := by
  unfold cutCaret
  split
  · exact ⟨['^', '^'], .plain (by simp) (by simp), rfl⟩
  · exact ⟨['^'], .plain (by simp) (by simp), rfl⟩

def insideIri (c : Char) : Bool := c != '>' && !isLineEnd c

theorem cutIri_covers (rest : List Char) : (cutIri rest).Covers ('<' :: rest) := by
  have parts := List.takeWhile_append_dropWhile (p := insideIri) (l := rest)
  unfold cutIri
  dsimp only
  split
  · next after same =>
    change rest.dropWhile insideIri = '>' :: after at same
    refine ⟨'<' :: rest.takeWhile insideIri ++ ['>'], .plain (by simp) (by simp), ?_⟩
    rw [same] at parts
    simpa [Cut.shut] using parts.symm
  · exact ⟨'<' :: rest.takeWhile insideIri, .plain (by simp) (by simp),
      congrArg ('<' :: ·) parts.symm⟩

theorem numberToken_cases (text : List Char) :
    numberToken text = .integer ∧ Text.isInteger64 text = true ∨
      numberToken text = .decimal ∧ Text.isDecimal text = true ∨ numberToken text = .illegal := by
  unfold numberToken
  split
  · next whole => exact .inl ⟨rfl, whole⟩
  · split
    · next decimal => exact .inr (.inl ⟨rfl, decimal⟩)
    · exact .inr (.inr rfl)

theorem ofWord_ne {token : Token} (strange : token.isWord = false) (text : String) :
    Token.ofWord text ≠ token := by
  rintro rfl
  simp [Token.ofWord_isWord] at strange

theorem symbolToken_ne_string (c : Char) : symbolToken c ≠ .string := by
  unfold symbolToken
  split <;> simp

theorem cut_covers (first : Char) (rest : List Char) : (cut first rest).Covers (first :: rest) := by
  unfold cut
  split
  · exact cutRun_covers (by simp)
  · split
    · next ends => exact cutLineEnd_covers ends
    · split
      · next quote => exact quote ▸ cutString_covers rest
      · split
        · exact cutRun_covers (by simp)
        · split
          · next caret => exact caret ▸ cutCaret_covers rest
          · split
            · next bracket => exact bracket ▸ cutIri_covers rest
            · split
              · exact cutRun_covers fun text => by
                  rcases numberToken_cases text with ⟨kind, -⟩ | ⟨kind, -⟩ | kind <;> simp [kind]
              · split
                · exact cutRun_covers fun text => ofWord_ne rfl _
                · exact ⟨[first], .plain (symbolToken_ne_string first) (by simp), rfl⟩

theorem cut_rest_length_le (first : Char) (rest : List Char) :
    (cut first rest).rest.length ≤ rest.length := by
  obtain ⟨written, stands, same⟩ := cut_covers first rest
  have lengths := congrArg List.length same
  have nonempty := List.length_pos_iff.mpr stands.ne_nil
  simp only [List.length_cons, List.length_append] at lengths
  omega

/-! ## Whole texts -/

def lexemesOf (text : List Char) : List Lexeme := (sequence text).lexemes

theorem cutAll_lexemes {limit : Nat} {text : List Char} (enough : text.length ≤ limit)
    (read : List Lexeme) (looksAtEnd : Bool) :
    (cutAll limit read looksAtEnd text).lexemes = read.reverse ++ lexemesOf text := by
  induction limit using Nat.strongRecOn generalizing read looksAtEnd text with
  | ind limit ih =>
    cases text with
    | nil => cases limit <;> simp [cutAll, lexemesOf, sequence]
    | cons first rest =>
      have fewer := cut_rest_length_le first rest
      rw [List.length_cons] at enough
      obtain ⟨limit, rfl⟩ : ∃ less, limit = less + 1 := ⟨limit - 1, by omega⟩
      -- The same cut comes first with the limit of a whole text.
      have whole : lexemesOf (first :: rest) =
          (cut first rest).lexeme :: lexemesOf (cut first rest).rest := by
        exact ih rest.length (by omega) fewer [(cut first rest).lexeme] _
      rw [cutAll, ih limit (by omega) (by omega), whole]
      simp

@[simp] theorem lexemesOf_nil : lexemesOf [] = [] := rfl

theorem lexemesOf_cons (first : Char) (rest : List Char) :
    lexemesOf (first :: rest) = (cut first rest).lexeme :: lexemesOf (cut first rest).rest :=
  cutAll_lexemes (cut_rest_length_le first rest) [(cut first rest).lexeme] _

/-- Induction along the cuts of a text. -/
theorem cut_induction {motive : List Char → Prop} (nil : motive [])
    (cons : ∀ first rest, motive (cut first rest).rest → motive (first :: rest))
    (text : List Char) : motive text := by
  induction size : text.length using Nat.strongRecOn generalizing text with
  | ind size ih =>
    cases text with
    | nil => exact nil
    | cons first rest =>
      have fewer := cut_rest_length_le first rest
      rw [List.length_cons] at size
      exact cons first rest (ih _ (by omega) _ rfl)

/-- The lexemes of a text cover all of it: written one after the other they are the text. -/
theorem lexemesOf_covers (text : List Char) :
    ∃ written, List.Forall₂ Written (lexemesOf text) written ∧ written.flatten = text := by
  induction text using cut_induction with
  | nil => exact ⟨[], .nil, rfl⟩
  | cons first rest ih =>
    obtain ⟨written, stands, same⟩ := cut_covers first rest
    obtain ⟨others, covered, flat⟩ := ih
    rw [lexemesOf_cons]
    exact ⟨written :: others, .cons stands covered, by rw [List.flatten_cons, flat, same]⟩

/-! ## The form of each lexeme -/

/-- What the text of a lexeme tells of its token. -/
inductive Formed : Lexeme → Prop where
  | word {first : Char} {rest : List Char} : Text.startsWord first = true →
      rest.all Text.continuesWord = true →
      Formed ⟨.ofWord (.ofList (first :: rest)), .ofList (first :: rest)⟩
  | number {first : Char} {rest : List Char} : startsNumber first = true →
      rest.all continuesNumber = true →
      Formed ⟨numberToken (first :: rest), .ofList (first :: rest)⟩
  | iri {inside : List Char} : inside.all insideIri = true →
      Formed ⟨.iri, .ofList ('<' :: inside ++ ['>'])⟩
  | openIri {inside : List Char} : inside.all insideIri = true →
      Formed ⟨.iri, .ofList ('<' :: inside)⟩
  | other {token : Token} {literal : String} : token.isWord = false → token ≠ .integer →
      token ≠ .decimal → token ≠ .iri → token ≠ .eof → Formed ⟨token, literal⟩

theorem Formed.ne_eof {lexeme : Lexeme} (formed : Formed lexeme) : lexeme.token ≠ .eof := by
  cases formed with
  | word => exact ofWord_ne rfl _
  | @number first rest =>
    rcases numberToken_cases (first :: rest) with ⟨kind, -⟩ | ⟨kind, -⟩ | kind <;> simp [kind]
  | iri => simp
  | openIri => simp
  | other _ _ _ _ visible => exact visible

theorem cutIri_formed (rest : List Char) : Formed (cutIri rest).lexeme := by
  have inside : (rest.takeWhile insideIri).all insideIri = true := List.all_takeWhile
  unfold cutIri
  dsimp only
  split
  · exact .iri inside
  · exact .openIri inside

theorem cut_formed (first : Char) (rest : List Char) : Formed (cut first rest).lexeme := by
  unfold cut
  split
  · exact .other rfl (by simp) (by simp) (by simp) (by simp)
  · split
    · unfold cutLineEnd
      repeat' split
      all_goals exact .other rfl (by simp) (by simp) (by simp) (by simp)
    · split
      · unfold cutString
        split <;> exact .other rfl (by simp) (by simp) (by simp) (by simp)
      · split
        · exact .other rfl (by simp) (by simp) (by simp) (by simp)
        · split
          · unfold cutCaret
            split <;> exact .other rfl (by simp) (by simp) (by simp) (by simp)
          · split
            · exact cutIri_formed rest
            · split
              · next number => exact .number number List.all_takeWhile
              · split
                · next word => exact .word word List.all_takeWhile
                · unfold symbolToken
                  repeat' split
                  all_goals exact .other rfl (by simp) (by simp) (by simp) (by simp)

theorem lexemesOf_formed (text : List Char) : ∀ lexeme ∈ lexemesOf text, Formed lexeme := by
  induction text using cut_induction with
  | nil => simp
  | cons first rest ih =>
    intro lexeme member
    rw [lexemesOf_cons] at member
    rcases List.mem_cons.mp member with rfl | member
    · exact cut_formed first rest
    · exact ih lexeme member

end OwlFunctional.Lexeme
