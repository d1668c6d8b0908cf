import OwlFunctional.Document
import OwlFunctional.Proofs.Acceptance.Expression

/-! The exact grammar of class expressions.

Without checks of identifiers and language tags, a class expression is read off an input if and
only if the lexemes taken spell it and each entity that it refers to can be found.
-/

set_option autoImplicit false

namespace OwlFunctional

open Spelling

/-- The lexemes spell the class expression, with nothing left over. -/
def Spelling.Spells (prefixes : Prefixes) (expression : ClassExpression)
    (lexemes : List Lexeme) : Prop := Class prefixes expression lexemes []

theorem Spelling.spells_iff {prefixes : Prefixes} {expression : ClassExpression}
    {taken rest : List Lexeme} :
    Spells prefixes expression taken ↔ Class prefixes expression (taken ++ rest) rest := by
  constructor
  · intro spelled
    obtain ⟨whole, same, -, anywhere⟩ := spelled.isLocal
    rw [List.append_nil] at same
    rw [same]
    exact anywhere rest
  · intro spelled
    obtain ⟨whole, same, -, anywhere⟩ := spelled.isLocal
    have alone := anywhere []
    rw [List.append_nil, ← List.append_cancel_right same] at alone
    exact alone

/-- The limit is one that the lexemes ahead cannot exhaust. -/
theorem classExpression_readsUpTo_iff (session : Session Catalogue) (prefixes : Prefixes)
    (limit : Nat) (taken rest : List Lexeme) (expression : ClassExpression)
    (ahead : session.stream.ahead = taken ++ rest) (noEof : session.stream.NoEof)
    (enough : Document.limit session ≤ limit) :
    ReadsUpTo (Grammar.classExpression ⟨prefixes, limit⟩) session expression rest ↔
      Spells prefixes expression taken ∧
        ∀ declaration ∈ expression.references, session.store.Resolves declaration := by
  have here : session.At (taken ++ rest) := ⟨by rw [ahead], noEof⟩
  rw [spells_iff]
  constructor
  · rintro ⟨after, read, behind⟩
    obtain ⟨spelled, held⟩ := Recognition.classExpressionWithin_spelled read here
    rw [behind] at spelled
    exact ⟨spelled, fun declaration member =>
      read.grows.resolves_of_holds (held declaration member)⟩
  · rintro ⟨spelled, resolve⟩
    rw [Document.limit, ahead] at enough
    have fits : size (taken ++ rest) < limit := Nat.lt_of_le_of_lt (size_le_length _) enough
    exact Acceptance.readsUpTo_classExpressionWithin spelled here (Nat.le_refl limit) fits resolve

theorem classExpression_readsUpTo_complement :
    ReadsUpTo (Grammar.classExpression ⟨.empty, 8⟩)
      ⟨{ source := "", looksAtEnd := true, pending := none,
          ahead := [⟨.keyword .objectComplementOf, "ObjectComplementOf"⟩, ⟨.openParen, "("⟩,
            ⟨.blank, " "⟩, ⟨.iri, "<a>"⟩, ⟨.closeParen, ")"⟩, ⟨.word, "b"⟩] },
        .empty .implicit⟩
      (.complementOf (.named ⟨⟨"a"⟩⟩)) [⟨.word, "b"⟩] := by
  refine (classExpression_readsUpTo_iff _ .empty 8
    [⟨.keyword .objectComplementOf, "ObjectComplementOf"⟩, ⟨.openParen, "("⟩, ⟨.blank, " "⟩,
      ⟨.iri, "<a>"⟩, ⟨.closeParen, ")"⟩] _ _ rfl ?_ (by decide)).mpr ⟨?_, ?_⟩
  · simp [Stream.NoEof]
  · exact .complementOf ⟨_, ⟨_, rfl⟩, ⟨_, rfl⟩⟩ (.named (.bracketed rfl)) ⟨_, rfl⟩
  · have foreign : Vocabulary.owlName? ⟨"a"⟩ = none := by decide
    simp [ClassExpression.references, Catalogue.Resolves, Declaration.Usable, foreign,
      Catalogue.Knows, Catalogue.empty]

end OwlFunctional
