import OwlFunctional.Proofs.Acceptance.Literal
import OwlFunctional.Proofs.Lookups
import OwlFunctional.Proofs.Validation.Grammar

/-! Literals by their parts.

The token of a literal, its language and its datatype are known before it is known whether the
datatype takes the value. They tell all about how the literal is read: whether it is, as which one,
and what is left after it.
-/

set_option autoImplicit false

namespace OwlFunctional

open Spelling

/-- The parts of a literal, up to where it ends, whether or not its datatype takes the value. -/
inductive Spelling.Draft (prefixes : Prefixes) : LiteralKind → String → Option String →
    Option Iri → List Lexeme → List Lexeme → Prop where
  | number {kind : LiteralKind} {value : String} {suffix : Option Iri}
      {input first rest : List Lexeme} :
      kind ≠ .text → Takes ⟨Recognition.kindToken kind, value⟩ input first →
      Suffix prefixes suffix first rest →
      (suffix = none → (firstLexeme rest).token ≠ .doubleCaret) →
      Draft prefixes kind value none suffix input rest
  | string {inside value : String} {language : Option String} {suffix : Option Iri}
      {input first second rest : List Lexeme} :
      Takes ⟨.string, inside⟩ input first → value = .ofList (Text.unescape inside.toList) →
      Language language first second →
      (language = none → (firstLexeme second).token ≠ .atSign) →
      Suffix prefixes suffix second rest →
      (suffix = none → (firstLexeme rest).token ≠ .doubleCaret) →
      Draft prefixes .text value language suffix input rest

theorem Spelling.Draft.ends {prefixes : Prefixes} {kind : LiteralKind} {value : String}
    {language : Option String} {suffix : Option Iri} {input rest : List Lexeme}
    (draft : Draft prefixes kind value language suffix input rest) : rest <:+ input := by
  cases draft with
  | number bare takes typed => exact typed.framed.ends.trans takes.suffix
  | string takes same tagged untagged typed =>
    exact (typed.framed.ends.trans tagged.framed.ends).trans takes.suffix

section

variable {scope : Scope} {kind : LiteralKind} {value : String} {language : Option String}
  {suffix : Option Iri} {input rest : List Lexeme}

theorem typed_read_iff {session : Session Catalogue} (here : session.At input)
    (spelled : Suffix scope.prefixes suffix input rest)
    (untyped : suffix = none → (firstLexeme rest).token ≠ .doubleCaret) :
    ∃ ended : Session Catalogue, ended.At rest ∧ ∀ position kind value language literal after,
      Reads .lenient (Grammar.typed scope position kind value language) session literal after ↔
        (∀ datatype ∈ suffix, Suits kind value language datatype) ∧
        literal = ⟨value, suffix.getD (Grammar.defaultDatatype kind language), language⟩ ∧
        after = ended := by
  obtain ⟨ended, read, there⟩ := Acceptance.readsTo_datatypeSuffix spelled here untyped
  refine ⟨ended, there, fun position kind value language literal after =>
    Recognition.typed_iff.trans ⟨?_, ?_⟩⟩
  · rintro ⟨other, again, suits, rfl⟩
    obtain ⟨same, rfl⟩ := Prod.mk.inj (read.symm.trans again)
    obtain rfl := Except.ok.inj same
    exact ⟨suits, rfl, rfl⟩
  · rintro ⟨suits, rfl, rfl⟩
    exact ⟨suffix, read, suits, rfl⟩

theorem draft_read_freely {session : Session Catalogue} (here : session.At input)
    (draft : Draft scope.prefixes kind value language suffix input rest)
    (enough : size input < scope.limit) :
    ∃ ended : Session Catalogue, ended.At rest ∧ ∀ literal after,
      Reads .lenient (Grammar.literal scope) session literal after ↔
        (∀ datatype ∈ suffix, Suits kind value language datatype) ∧
        literal = ⟨value, suffix.getD (Grammar.defaultDatatype kind language), language⟩ ∧
        after = ended := by
  cases draft with
  | number bare takes typed untyped =>
    obtain ⟨scanned, begun, scan, same, ahead⟩ := Acceptance.readsUpTo_token takes here
    obtain ⟨ended, there, iff⟩ := typed_read_iff (scan.atAhead here ahead) typed untyped
    refine ⟨ended, there, fun literal after => ?_⟩
    rw [Grammar.literal, Reads.bind_after scan]
    cases kind with
    | text => exact absurd rfl bare
    | whole | decimal =>
      simp only [Scanned.token, Scanned.literal, same]
      exact iff scanned.position _ value none literal after
  | string takes same tagged untagged typed untyped =>
    subst same
    obtain ⟨scanned, begun, scan, same, ahead⟩ := Acceptance.readsUpTo_token takes here
    have fewer := Nat.lt_trans (Takes.isLocal takes).size_lt enough
    obtain ⟨spoken, tag, spokenAt⟩ :=
      Acceptance.readsTo_language tagged (scan.atAhead here ahead) fewer untagged
    obtain ⟨ended, there, iff⟩ := typed_read_iff spokenAt typed untyped
    refine ⟨ended, there, fun literal after => ?_⟩
    rw [Grammar.literal, Reads.bind_after scan]
    simp only [Scanned.token, Scanned.literal, same]
    exact (Reads.bind_after (Reads.within_iff.mpr tag)).trans (iff ..)

end

theorem size_lt_of_limit_le {σ : Type} {session : Session σ} {limit : Nat}
    (enough : Document.limit session ≤ limit) : size session.stream.ahead < limit :=
  Nat.lt_of_lt_of_le (Nat.lt_succ_of_le (size_le_length _)) enough

theorem draft_read_iff {σ : Type} [Store σ] {checks : Checks} {scope : Scope}
    {session : Session σ} {kind : LiteralKind} {value : String} {language : Option String}
    {suffix : Option Iri} {rest : List Lexeme}
    (draft : Draft scope.prefixes kind value language suffix session.stream.ahead rest)
    (noEof : session.stream.NoEof) (enough : size session.stream.ahead < scope.limit) :
    ∃ stream, significant stream.ahead = significant rest ∧ ∀ literal after,
      Reads checks (Grammar.literal scope) session literal after ↔
        checks.Vets session.stream.ahead rest ∧
        (∀ datatype ∈ suffix, Suits kind value language datatype) ∧
        literal = ⟨value, suffix.getD (Grammar.defaultDatatype kind language), language⟩ ∧
        after = ⟨stream, session.store⟩ := by
  -- No store is asked, so that the literal is read alike with an empty catalogue.
  let twin : Session Catalogue := ⟨session.stream, .empty .explicit⟩
  have twinAt : twin.At session.stream.ahead := ⟨rfl, noEof⟩
  obtain ⟨ended, endedAt, freely⟩ := draft_read_freely twinAt draft enough
  have vetsEnded (suffix : ended.stream.ahead <:+ session.stream.ahead) :
      checks.Vets session.stream.ahead ended.stream.ahead ↔
        checks.Vets session.stream.ahead rest := by
    rw [← Checks.vets_significant_iff suffix, endedAt.alike,
      Checks.vets_significant_iff draft.ends]
  refine ⟨ended.stream, endedAt.alike, fun literal after => ⟨fun read => ?_, ?_⟩⟩
  · have there : Reads checks (Grammar.literal scope) twin literal ⟨after.stream, twin.store⟩ :=
      read.elsewhere (LooksUp.literal _) rfl
    obtain ⟨free, vets⟩ := ((literal_judged scope).weighs noEof).mp there
    obtain ⟨suits, same, rfl⟩ := (freely literal _).mp free
    have back : Reads checks (Grammar.literal scope) session literal
        ⟨after.stream, session.store⟩ := there.elsewhere (LooksUp.literal _) rfl
    exact ⟨(vetsEnded ((literal_judged scope).suffix free)).mp vets, suits, same,
      congrArg Prod.snd (read.symm.trans back)⟩
  · rintro ⟨vets, suits, same, rfl⟩
    have read := (freely literal ended).mpr ⟨suits, same, rfl⟩
    have strictly : Reads checks (Grammar.literal scope) twin literal ended :=
      ((literal_judged scope).weighs noEof).mpr
        ⟨read, (vetsEnded ((literal_judged scope).suffix read)).mpr vets⟩
    exact strictly.elsewhere (LooksUp.literal _) rfl

end OwlFunctional
