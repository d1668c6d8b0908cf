import OwlFunctional.Proofs.Acceptance.Literal
import OwlFunctional.Proofs.Lookups
import OwlFunctional.Proofs.Printing.Literal
import OwlFunctional.Proofs.Utf8

/-! Literals are read back from their written form.

The written form of a value ends at its own closing quote, whatever quotes and backslashes it holds,
and that of a language tag at the first character that goes on with no subtag.
-/

set_option autoImplicit false

namespace OwlFunctional

open Lexeme Spelling

def Ends (following : List Char) : Prop := ∃ c rest, following = c :: rest ∧ (c = ' ' ∨ c = ')')

theorem Ends.stops {following : List Char} (ends : Ends following) : Stops following := by
  obtain ⟨c, rest, rfl, rfl | rfl⟩ := ends
  · exact .cons (by decide) rest
  · exact .cons (by decide) rest

theorem Session.atLexemes {σ : Type} {session : Session σ} {text : List Char}
    (ahead : session.stream.ahead = lexemesOf text) : session.At (lexemesOf text) where
  alike := by rw [ahead]
  noEof lexeme member := (lexemesOf_formed text lexeme (ahead ▸ member)).ne_eof

/-- Some text is read as the language tag. -/
def ReadableTag (tag : String) : Prop :=
  ∃ (checks : Checks) (scope : Scope) (text : String) (session after : Session Catalogue),
    session.stream.ahead = lexemesOf text.toList ∧
      Reads checks (Grammar.language scope) session (some tag) after

theorem ReadableTag.printed {tag : String} (readable : ReadableTag tag) :
    Printed (Language (some tag)) ('@' :: tag.toList) := by
  obtain ⟨checks, scope, text, session, after, ahead, read⟩ := readable
  obtain ⟨rest, spelled, -⟩ := Recognition.language_spelled read (Session.atLexemes ahead)
  exact spelled.printed (lexemesOf_formed _)

/-- A literal is read back from its written form, and all tokens after it are left. -/
theorem render_literal_read {σ : Type} [Store σ] {prefixes : Prefixes} {limit : Nat}
    {session : Session σ} {literal : OwlFunctional.Literal} {following : String}
    (suits : Suits .text literal.value literal.language literal.datatype)
    (writable : literal.datatype.Writable)
    (readable : ∀ tag ∈ literal.language, ReadableTag tag)
    (ends : Ends following.toList)
    (untagged : (firstLexeme (lexemesOf following.toList)).token ≠ .atSign)
    (untyped : (firstLexeme (lexemesOf following.toList)).token ≠ .doubleCaret)
    (ahead : session.stream.ahead = lexemesOf (literal.render ++ following).toList)
    (enough : Document.limit session ≤ limit) :
    ∃ stream, Reads .lenient (Grammar.literal ⟨prefixes, limit⟩) session literal
        ⟨stream, session.store⟩ ∧
      significant stream.ahead = significant (lexemesOf following.toList) := by
  -- No store is asked, so that the literal is read alike with an empty catalogue.
  let twin : Session Catalogue := ⟨session.stream, .empty .explicit⟩
  have twinAt : twin.At (lexemesOf (literal.render ++ following).toList) :=
    Session.atLexemes ahead
  have spelled : Spelling.Literal prefixes literal _ (lexemesOf following.toList) :=
    printed_literal writable suits (fun tag same => (readable tag same).printed) prefixes
      (lexemesOf (literal.render ++ following).toList) following.toList ends.stops
      (by rw [String.toList_append])
  have fewer : size (lexemesOf (literal.render ++ following).toList) < limit := by
    have short := size_le_length session.stream.ahead
    rw [← ahead]
    exact Nat.lt_of_lt_of_le (Nat.lt_succ_of_le short) enough
  have reads : ReadsTo (Grammar.literal ⟨prefixes, limit⟩) twin literal _ :=
    Acceptance.readsTo_literal spelled twinAt fewer ⟨untagged, untyped⟩
  obtain ⟨after, read, there⟩ := reads
  exact ⟨after.stream, read.elsewhere (LooksUp.literal _) rfl, there.alike⟩

theorem render_literal_read_mixed :
    let literal : OwlFunctional.Literal := ⟨"\\\"a\\\n\"", Vocabulary.string, some "en-419"⟩
    let session : Session Catalogue :=
      ⟨.ofInput "" (.ofString (literal.render ++ " # @\n )")), .empty .explicit⟩
    ∃ stream, Reads .lenient (Grammar.literal ⟨.empty, Document.limit session⟩) session literal
        ⟨stream, session.store⟩ ∧
      significant stream.ahead = [⟨.closeParen, ")"⟩] := by
  have ends : Ends " # @\n )".toList := ⟨' ', _, rfl, .inl rfl⟩
  refine render_literal_read ?_ ?_ ?_ ends ?_ ?_ ?_ (Nat.le_refl _)
  · have kind : Vocabulary.datatypeKind? Vocabulary.string = some .text := by decide
    exact fun expected known => Option.some.inj (kind.symm.trans known) ▸ .same
  · decide
  · rintro tag ⟨⟩
    exact ⟨.lenient, ⟨.empty, 9⟩, "@en-419",
      ⟨{ source := "", ahead := lexemesOf "@en-419".toList, looksAtEnd := true, pending := none },
        .empty .explicit⟩, _, rfl, rfl⟩
  · decide
  · decide
  · exact congrArg lexemesOf (Input.chars_ofString _)

end OwlFunctional
