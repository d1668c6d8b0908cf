import OwlFunctional.Proofs.Recognition.Name

/-! What the readings of literals give is spelled by what they read.

A literal ends where no language and no datatype follows. To see that, its reading may pass over
trivia, so the cursor is where the literal ends but for trivia.
-/

set_option autoImplicit false

namespace OwlFunctional.Recognition

open Spelling Grammar

variable {checks : Checks} {session after : Session Catalogue} {input : List Lexeme}

theorem accept_at {token : Token} {accepted : Bool}
    (read : Reads checks (Reading.accept token) session accepted after) (here : session.At input)
    (visible : token ≠ .eof) :
    if accepted then Mark token input after.stream.ahead else after.At input := by
  obtain ⟨next, between, scan, read⟩ := Reads.bind_iff.mp read
  split at read
  · next same =>
    obtain ⟨rfl, rfl⟩ := Reads.pure_iff.mp read
    exact ⟨_, scan.takes_token here same visible⟩
  · obtain ⟨_, ended, back, read⟩ := Reads.bind_iff.mp read
    obtain ⟨rfl, rfl⟩ := Reads.pure_iff.mp read
    exact scan.unscan_at back here

theorem subtag_hyphen {stream : Stream} {token : Token} {literal : String} {rest : List Lexeme}
    (ahead : stream.ahead = ⟨.illegal, "-"⟩ :: ⟨token, literal⟩ :: rest)
    (goesOn : token.isWord = true ∨ token = .integer) :
    stream.subtag.1 = .piece ("-" ++ literal) ∧ stream.subtag.2.ahead = rest := by
  have first : stream.next = ⟨.illegal, "-"⟩ := by simp [Stream.next, ahead]
  have second : stream.scan.2.next = ⟨token, literal⟩ := by simp [Stream.next, ahead]
  have taken : (token.isWord || decide (token = .integer)) = true := by simpa using goesOn
  simp [Stream.subtag, Scanned.token, Scanned.literal, first, second, taken, ahead]

theorem subtag_negative {stream : Stream} {literal : String} {rest : List Lexeme}
    (ahead : stream.ahead = ⟨.integer, literal⟩ :: rest)
    (sign : literal.toList.head? = some '-') :
    stream.subtag.1 = .piece literal ∧ stream.subtag.2.ahead = rest := by
  have first : stream.next = ⟨.integer, literal⟩ := by simp [Stream.next, ahead]
  simp [Stream.subtag, Scanned.token, Scanned.literal, first, sign, ahead]

theorem subtag_absent {stream : Stream} (noEof : stream.NoEof)
    (ended : ∀ lexeme ∈ stream.ahead.head?, ¬ ContinuesTag lexeme) :
    (∃ position, stream.subtag.1 = .absent position) ∧
      stream.subtag.2.ahead = stream.ahead := by
  have back := Stream.scan_unscan_ahead noEof
  have next : ¬ ContinuesTag stream.scan.1.lexeme := by
    rw [Stream.scan_lexeme, Stream.next]
    cases ahead : stream.ahead with
    | nil => simp [ContinuesTag, Lexeme.eof]
    | cons lexeme rest => exact ended lexeme (by simp [ahead])
  obtain ⟨hyphen, negative⟩ := not_or.mp next
  have found : stream.subtag = (.absent stream.scan.1.position, stream.scan.2.unscan) :=
    (if_neg hyphen).trans (if_neg negative)
  rw [found]
  exact ⟨⟨_, rfl⟩, back⟩

/-- What a stream finds where a language tag may go on, by the lexemes ahead. -/
theorem subtag_cases (stream : Stream) :
    (∃ token literal rest, (token.isWord = true ∨ token = .integer) ∧
      stream.ahead = ⟨.illegal, "-"⟩ :: ⟨token, literal⟩ :: rest) ∨
    (∃ literal rest, literal.toList.head? = some '-' ∧
      stream.ahead = ⟨.integer, literal⟩ :: rest) ∨
    (∃ found, stream.subtag.1 = .broken found) ∨
    (∀ lexeme ∈ stream.ahead.head?, ¬ ContinuesTag lexeme) := by
  cases ahead : stream.ahead with
  | nil => exact .inr (.inr (.inr (by simp)))
  | cons lexeme rest =>
    have first : stream.next = lexeme := by simp [Stream.next, ahead]
    by_cases hyphen : lexeme = ⟨.illegal, "-"⟩
    · subst hyphen
      by_cases goesOn : (stream.scan.2.scan.1.token.isWord ||
          decide (stream.scan.2.scan.1.token = .integer)) = true
      · rw [Bool.or_eq_true, decide_eq_true_iff, Scanned.token, Stream.scan_lexeme, Stream.next,
          Stream.scan_ahead, ahead, List.tail_cons] at goesOn
        cases rest with
        | nil => simp [Token.isWord, Lexeme.eof] at goesOn
        | cons other rest => exact .inl ⟨other.token, other.literal, rest, goesOn, rfl⟩
      · have found : stream.subtag = (.broken stream.scan.2.scan.1, stream.scan.2.scan.2) :=
          (if_pos first).trans (if_neg goesOn)
        exact .inr (.inr (.inl ⟨_, by rw [found]⟩))
    · by_cases negative : lexeme.token = .integer ∧ lexeme.literal.toList.head? = some '-'
      · exact .inr (.inl ⟨lexeme.literal, rest, negative.2, by rw [← negative.1]⟩)
      · exact .inr (.inr (.inr (by simpa [ContinuesTag, hyphen] using negative)))

theorem languageRest_spelled {limit : Nat} {tag result : String}
    (read : Reads checks (languageRest tag limit) session result after)
    (noEof : session.stream.NoEof) :
    ∃ text, result = tag ++ text ∧ TagRest text session.stream.ahead after.stream.ahead := by
  induction limit generalizing session tag with
  | zero => simp [languageRest, Reading.limitReached, Reads.bind_iff] at read
  | succ limit ih =>
    obtain ⟨found, between, piece, read⟩ := Reads.bind_iff.mp read
    have noEofThen := piece.noEof noEof
    obtain ⟨rfl, rfl⟩ := Reads.subtag_iff.mp piece
    -- The piece is told by the lexemes ahead, and the bound goes down with each one.
    rcases subtag_cases session.stream with ⟨token, literal, rest, goesOn, ahead⟩ |
      ⟨literal, rest, sign, ahead⟩ | ⟨broken, same⟩ | ended
    · obtain ⟨same, behind⟩ := subtag_hyphen ahead goesOn
      rw [same] at read
      obtain ⟨text, rfl, spelled⟩ := ih read noEofThen
      refine ⟨"-" ++ literal ++ text, by simp [String.append_assoc], ?_⟩
      rw [behind] at spelled
      rw [ahead]
      exact .hyphen goesOn spelled
    · obtain ⟨same, behind⟩ := subtag_negative ahead sign
      rw [same] at read
      obtain ⟨text, rfl, spelled⟩ := ih read noEofThen
      refine ⟨literal ++ text, by simp [String.append_assoc], ?_⟩
      rw [behind] at spelled
      rw [ahead]
      exact .negative sign spelled
    · rw [same] at read
      simp at read
    · obtain ⟨⟨position, same⟩, behind⟩ := subtag_absent noEof ended
      rw [same] at read
      obtain ⟨_, checked, check, read⟩ := Reads.bind_iff.mp read
      obtain ⟨-, rfl⟩ := Reads.checkTag_iff.mp check
      obtain ⟨rfl, rfl⟩ := Reads.pure_iff.mp read
      refine ⟨"", by simp, ?_⟩
      rw [behind]
      exact .done ended

theorem language_spelled {scope : Scope} {tag : Option String}
    (read : Reads checks (language scope) session tag after) (here : session.At input) :
    ∃ rest, Language tag input rest ∧ after.At rest := by
  obtain ⟨accepted, between, accept, read⟩ := Reads.bind_iff.mp read
  have next := accept_at accept here (by simp)
  split at read
  · next tagged =>
    rw [if_pos tagged] at next
    have betweenAt := accept.atItself here
    obtain ⟨first, begun, scan, read⟩ := Reads.bind_iff.mp read
    split at read
    · next isWord =>
      obtain ⟨result, rest, rfl⟩ := Reads.map_iff.mp read
      have visible : first.token ≠ .eof := by
        intro eof
        simp [eof, Token.isWord] at isWord
      have takes := scan.takes_of_token betweenAt visible
      obtain ⟨text, rfl, spelled⟩ := languageRest_spelled rest (scan.noEof betweenAt.noEof)
      exact ⟨_, .tag next isWord takes spelled, rest.atItself (scan.atItself betweenAt)⟩
    · simp at read
  · next untagged =>
    obtain ⟨rfl, rfl⟩ := Reads.pure_iff.mp read
    rw [if_neg untagged] at next
    exact ⟨input, .absent, next⟩

theorem datatypeSuffix_spelled {scope : Scope} {suffix : Option Iri}
    (read : Reads checks (datatypeSuffix scope) session suffix after) (here : session.At input) :
    ∃ rest, Suffix scope.prefixes suffix input rest ∧ after.At rest := by
  obtain ⟨accepted, between, accept, read⟩ := Reads.bind_iff.mp read
  have next := accept_at accept here (by simp)
  split at read
  · next typed =>
    rw [if_pos typed] at next
    have betweenAt := accept.atItself here
    obtain ⟨⟨iri, position⟩, ended, named, read⟩ := Reads.bind_iff.mp read
    obtain ⟨rfl, rfl⟩ := Reads.pure_iff.mp read
    exact ⟨_, .datatype next (name_spelled named betweenAt), named.atItself betweenAt⟩
  · next untyped =>
    obtain ⟨rfl, rfl⟩ := Reads.pure_iff.mp read
    rw [if_neg untyped] at next
    exact ⟨input, .absent, next⟩

theorem fits_iff {written expected : LiteralKind} {value : String} {language : Option String} :
    fits written expected value language = true ↔ Fits written expected value language := by
  constructor
  · intro fit
    unfold fits at fit
    split at fit
    · exact .whole fit
    · exact .decimal fit
    · obtain rfl : written = expected := by simpa using fit
      exact .same
  · intro fit
    cases fit with
    | same => cases written <;> cases language <;> simp [fits]
    | whole isWhole => exact isWhole
    | decimal isDecimal => exact isDecimal

/-- The token that a literal of a form starts with. -/
def kindToken : LiteralKind → Token
  | .whole => .integer
  | .decimal => .decimal
  | .text => .string

theorem token_of_writtenKind? {token : Token} {kind : LiteralKind}
    (written : writtenKind? token = some kind) : token = kindToken kind := by
  unfold writtenKind? at written
  split at written
  · obtain rfl := Option.some.inj written
    rfl
  · obtain rfl := Option.some.inj written
    rfl
  · obtain rfl := Option.some.inj written
    rfl
  · simp at written

theorem defaultDatatype_text (language : Option String) :
    defaultDatatype .text language = stringDatatype language := by
  cases language <;> rfl

/-- What follows the value and the language of a literal. -/
theorem typed_iff {σ : Type} [Store σ] {session after : Session σ} {scope : Scope}
    {kind : LiteralKind} {value : String} {language : Option String} {position : Position}
    {literal : Literal} :
    Reads checks (typed scope position kind value language) session literal after ↔
      ∃ suffix, Reads checks (datatypeSuffix scope) session suffix after ∧
        (∀ datatype ∈ suffix, Suits kind value language datatype) ∧
        literal = ⟨value, suffix.getD (defaultDatatype kind language), language⟩ := by
  rw [typed, Reads.bind_iff]
  constructor
  · rintro ⟨suffix, between, spelled, read⟩
    have given := Reads.within_iff.mp spelled
    split at read
    · obtain ⟨rfl, rfl⟩ := Reads.pure_iff.mp read
      exact ⟨none, given, by simp, rfl⟩
    · next datatype =>
      refine ⟨some datatype, ?_⟩
      split at read
      · next expected known =>
        split at read
        · next fit =>
          obtain ⟨rfl, rfl⟩ := Reads.pure_iff.mp read
          refine ⟨given, ?_, rfl⟩
          simpa [Suits, known] using fits_iff.mp fit
        · simp at read
      · next unknown =>
        obtain ⟨rfl, rfl⟩ := Reads.pure_iff.mp read
        exact ⟨given, by simp [Suits, unknown], rfl⟩
  · rintro ⟨suffix, given, suits, rfl⟩
    refine ⟨suffix, after, Reads.within_iff.mpr given, ?_⟩
    cases suffix with
    | none => simp
    | some datatype =>
      dsimp only
      split
      · next expected known => simp [fits_iff.mpr (suits datatype rfl expected known)]
      · simp

theorem literal_spelled {scope : Scope} {literal : Literal}
    (read : Reads checks (Grammar.literal scope) session literal after) (here : session.At input) :
    ∃ rest, Spelling.Literal scope.prefixes literal input rest ∧ after.At rest := by
  obtain ⟨first, begun, scan, read⟩ := Reads.bind_iff.mp read
  have begunAt := scan.atItself here
  split at read
  · next kind =>
    obtain ⟨rfl, rfl⟩ := Reads.pure_iff.mp read
    exact ⟨_, .boolean (scan.takes_token here kind (by simp)), begunAt⟩
  · simp at read
  · next kind written _ =>
    dsimp only at read
    split at read
    · next isText =>
      subst isText
      obtain ⟨language, spoken, tag, read⟩ := Reads.bind_iff.mp read
      obtain ⟨middle, tagged, spokenAt⟩ := language_spelled (Reads.within_iff.mp tag) begunAt
      obtain ⟨suffix, typed, suits, rfl⟩ := typed_iff.mp read
      obtain ⟨rest, spelled, afterAt⟩ := datatypeSuffix_spelled typed spokenAt
      have takes := scan.takes_token here (token_of_writtenKind? written) (by simp [kindToken])
      rw [defaultDatatype_text]
      exact ⟨rest, .string takes rfl tagged spelled suits, afterAt⟩
    · next notText =>
      obtain ⟨suffix, typed, suits, rfl⟩ := typed_iff.mp read
      obtain ⟨rest, spelled, afterAt⟩ := datatypeSuffix_spelled typed begunAt
      refine ⟨rest, ?_, afterAt⟩
      have same := token_of_writtenKind? written
      cases kind with
      | text => exact absurd rfl notText
      | whole => exact .integer (scan.takes_token here same (by simp)) spelled suits
      | decimal => exact .decimal (scan.takes_token here same (by simp)) spelled suits

end OwlFunctional.Recognition
