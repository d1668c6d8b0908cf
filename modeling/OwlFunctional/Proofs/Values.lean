import OwlFunctional.Proofs.LanguageTags
import OwlFunctional.Proofs.Numerals

/-! Which values the datatype of a literal takes.

A built-in datatype of numbers takes them bare or between quotes. Between quotes it is the text that
counts, whatever its length. A bare numeral is a whole number within 64 bits only, and a decimal one
past them, which no datatype of whole numbers takes.
-/

set_option autoImplicit false

namespace OwlFunctional

open Lexeme Spelling

/-! ## Datatypes of literals -/

def ReadableName (checks : Checks) (prefixes : Prefixes) (iri : Iri) (text : String) : Prop :=
  ∃ (limit : Nat) (session after : Session Catalogue) (position : Position),
    session.stream.ahead = lexemesOf text.toList ∧
      Reads checks (Grammar.name ⟨prefixes, limit⟩) session (iri, position) after

theorem ReadableName.spelled {checks : Checks} {prefixes : Prefixes} {iri : Iri} {text : String}
    (readable : ReadableName checks prefixes iri text) :
    ∃ rest, Name prefixes.resolve? iri (lexemesOf text.toList) rest ∧
      checks.Vets (lexemesOf text.toList) rest := by
  obtain ⟨limit, session, after, position, ahead, read⟩ := readable
  have here := Session.atLexemes ahead
  exact ⟨_, Recognition.name_spelled read here,
    ahead ▸ (((name_judged _).weighs here.noEof).mp read).2⟩

theorem typed_draft_read_iff {σ : Type} [Store σ] {checks : Checks} {prefixes : Prefixes}
    {limit : Nat} {session : Session σ} {kind : LiteralKind} {value : String}
    {language : Option String} {datatype : Iri} {rest : List Lexeme}
    (draft : Draft prefixes kind value language (some datatype) session.stream.ahead rest)
    (vets : checks.Vets session.stream.ahead rest) (noEof : session.stream.NoEof)
    (enough : Document.limit session ≤ limit) (literal : OwlFunctional.Literal) :
    (∃ after, Reads checks (Grammar.literal ⟨prefixes, limit⟩) session literal after) ↔
      Suits kind value language datatype ∧ literal = ⟨value, datatype, language⟩ := by
  obtain ⟨stream, -, iff⟩ : ∃ stream, _ ∧ ∀ literal after,
      Reads checks (Grammar.literal ⟨prefixes, limit⟩) session literal after ↔ _ :=
    draft_read_iff draft noEof (size_lt_of_limit_le enough)
  simp [iff, vets]

/-- A string suits the datatypes of strings, and those of numbers that it writes. -/
theorem fits_text_iff {expected : LiteralKind} {value : String} {language : Option String} :
    Fits .text expected value language ↔
      expected = .text ∨ language = none ∧
        (expected = .whole ∧ Text.isWhole value.toList = true ∨
          expected = .decimal ∧ Text.isDecimal value.toList = true) := by
  constructor
  · rintro (_ | whole | decimal)
    · exact .inl rfl
    · exact .inr ⟨rfl, .inl ⟨rfl, whole⟩⟩
    · exact .inr ⟨rfl, .inr ⟨rfl, decimal⟩⟩
  · rintro (rfl | ⟨rfl, ⟨rfl, whole⟩ | ⟨rfl, decimal⟩⟩)
    · exact .same
    · exact .whole whole
    · exact .decimal decimal

theorem suits_iff {kind expected : LiteralKind} {value : String} {language : Option String}
    {datatype : Iri} (known : Vocabulary.datatypeKind? datatype = some expected) :
    Suits kind value language datatype ↔ Fits kind expected value language := by
  simp [Suits, known]

/-! ## Literals by their text -/

def Literal.renderLanguage : Option String → String
  | none => ""
  | some language => "@" ++ language

section

variable {checks : Checks} {prefixes : Prefixes} {datatype : Iri} {named : String}

theorem ReadableName.suffix (readable : ReadableName checks prefixes datatype named) :
    ∃ rest, Suffix prefixes (some datatype) (lexemesOf ('^' :: '^' :: named.toList)) rest ∧
      checks.Vets (lexemesOf ('^' :: '^' :: named.toList)) rest := by
  obtain ⟨rest, name, vets⟩ := readable.spelled
  obtain ⟨carets, takes⟩ : Mark .doubleCaret (lexemesOf ('^' :: '^' :: named.toList))
      (lexemesOf named.toList) := shut_doubleCaret _ _ rfl
  exact ⟨rest, .datatype ⟨carets, takes⟩ name,
    (Checks.vets_trans_iff takes.suffix name.isLocal.framed.ends).mpr
      ⟨(Checks.vets_takes takes).mpr (.of_unchecked rfl), vets⟩⟩

theorem quoted_draft (value : String) {tag : Option String}
    (tagged : ∀ language ∈ tag, ReadableTag language)
    (passed : ∀ language ∈ tag, checks.tag language = none)
    (readable : ReadableName checks prefixes datatype named) :
    let input := lexemesOf
      (Literal.quote value ++ Literal.renderLanguage tag ++ "^^" ++ named).toList
    ∃ rest, Draft prefixes .text value tag (some datatype) input rest ∧ checks.Vets input rest := by
  intro input
  obtain ⟨rest, typed, vets⟩ := readable.suffix
  have takes : Takes ⟨.string, .ofList (Text.escape value.toList)⟩ input
      (lexemesOf ((Literal.renderLanguage tag).toList ++ '^' :: '^' :: named.toList)) :=
    shut_string value _ _ (by simp [input])
  have language : Language tag
      (lexemesOf ((Literal.renderLanguage tag).toList ++ '^' :: '^' :: named.toList))
      (lexemesOf ('^' :: '^' :: named.toList)) := by
    cases tag with
    | none => exact .absent
    | some tag =>
      exact (tagged tag rfl).printed _ _ (.cons (by decide) _) (by simp [Literal.renderLanguage])
  have untagged : (firstLexeme (lexemesOf ('^' :: '^' :: named.toList))).token ≠ .atSign := by
    rw [lexemesOf_cons]
    exact Token.noConfusion
  have ends := typed.framed.ends
  obtain ⟨between, vetsLanguage⟩ := checks.vets_language language
  refine ⟨rest, .string takes (by simp [Text.unescape_escape]) language (fun _ => untagged) typed
    (by simp), (Checks.vets_trans_iff takes.suffix (ends.trans between)).mpr ⟨?_, ?_⟩⟩
  · exact (Checks.vets_takes takes).mpr (.of_unchecked rfl)
  · exact (Checks.vets_trans_iff between ends).mpr ⟨vetsLanguage.mpr passed, vets⟩

theorem bare_takes {kind : LiteralKind} {numeral : String} (whole : Text.isWhole numeral.toList = true)
    (token : numberToken numeral.toList = Recognition.kindToken kind) {following : List Char}
    (ends : ∀ c ∈ following.head?, continuesNumber c = false) :
    Takes ⟨Recognition.kindToken kind, numeral⟩ (lexemesOf (numeral.toList ++ following))
      (lexemesOf following) := by
  obtain ⟨first, run, same, starts, inside⟩ := exists_run_of_isWhole whole
  have telling : (Recognition.kindToken kind).isTrivia = false := by cases kind <;> rfl
  rw [Takes, same, lexemesOf_number starts inside ends, ← same, String.ofList_toList, token,
    significant_cons telling]

theorem bare_draft {kind : LiteralKind} {numeral : String} (number : kind ≠ .text)
    (whole : Text.isWhole numeral.toList = true)
    (token : numberToken numeral.toList = Recognition.kindToken kind)
    (readable : ReadableName checks prefixes datatype named) :
    let input := lexemesOf (numeral ++ "^^" ++ named).toList
    ∃ rest, Draft prefixes kind numeral none (some datatype) input rest ∧
      checks.Vets input rest := by
  intro input
  obtain ⟨rest, typed, vets⟩ := readable.suffix
  have takes : Takes ⟨Recognition.kindToken kind, numeral⟩ input
      (lexemesOf ('^' :: '^' :: named.toList)) := by
    have text : (numeral ++ "^^" ++ named).toList =
        numeral.toList ++ '^' :: '^' :: named.toList := by simp
    rw [← show lexemesOf _ = input from congrArg lexemesOf text.symm]
    exact bare_takes whole token (by rintro _ ⟨⟩; rfl)
  have unchecked : (Recognition.kindToken kind).isChecked = false := by cases kind <;> rfl
  exact ⟨rest, .number number takes typed (by simp),
    (Checks.vets_trans_iff takes.suffix typed.framed.ends).mpr
      ⟨(Checks.vets_takes takes).mpr (.of_unchecked unchecked), vets⟩⟩

end

/-! ## Whole numbers -/

/-- A bare numeral is read as a whole number within 64 bits, and as a decimal one past them. With
a datatype of whole numbers it is read like the same numeral between quotes within 64 bits, and is
refused past them. Between quotes it is read whatever its size. -/
theorem numeral_read_within_64_bits {σ : Type} [Store σ] {numeral : String} {value : Int}
    (whole : Text.wholeValue? numeral.toList = some value) (checks : Checks)
    (prefixes : Prefixes) :
    (∀ (session : Session σ) (limit : Nat) (following : String),
      (∀ c ∈ following.toList.head?, continuesNumber c = false) →
      (firstLexeme (lexemesOf following.toList)).token ≠ .doubleCaret →
      session.stream.ahead = lexemesOf (numeral ++ following).toList →
      Document.limit session ≤ limit →
      ∃ stream, significant stream.ahead = significant (lexemesOf following.toList) ∧
        ∀ literal after, Reads checks (Grammar.literal ⟨prefixes, limit⟩) session literal after ↔
          literal = ⟨numeral,
            if Text.Fits64 value then Vocabulary.integer else Vocabulary.decimal, none⟩ ∧
          after = ⟨stream, session.store⟩) ∧
    ∀ (datatype : Iri) (named : String), Vocabulary.datatypeKind? datatype = some .whole →
      ReadableName checks prefixes datatype named →
      (∀ (session : Session σ) (limit : Nat),
        session.stream.ahead = lexemesOf (Literal.quote numeral ++ "^^" ++ named).toList →
        Document.limit session ≤ limit → ∀ literal,
          (∃ after, Reads checks (Grammar.literal ⟨prefixes, limit⟩) session literal after) ↔
            literal = ⟨numeral, datatype, none⟩) ∧
      ∀ (session : Session σ) (limit : Nat),
        session.stream.ahead = lexemesOf (numeral ++ "^^" ++ named).toList →
        Document.limit session ≤ limit → ∀ literal,
          (∃ after, Reads checks (Grammar.literal ⟨prefixes, limit⟩) session literal after) ↔
            Text.Fits64 value ∧ literal = ⟨numeral, datatype, none⟩ := by
  have isWhole := Text.isWhole_of_wholeValue? whole
  -- Only the token of a bare numeral depends on its size.
  obtain ⟨kind, number, token, within⟩ : ∃ kind : LiteralKind, kind ≠ .text ∧
      numberToken numeral.toList = Recognition.kindToken kind ∧
      (kind = .whole ∧ Text.Fits64 value ∨ kind = .decimal ∧ ¬ Text.Fits64 value) := by
    rw [numberToken_of_wholeValue? whole]
    by_cases fits : Text.Fits64 value
    · exact ⟨.whole, by simp, if_pos fits, .inl ⟨rfl, fits⟩⟩
    · exact ⟨.decimal, by simp, if_neg fits, .inr ⟨rfl, fits⟩⟩
  refine ⟨fun session limit following ends untyped ahead enough => ?_,
    fun datatype named known readable => ⟨fun session limit ahead enough literal => ?_,
      fun session limit ahead enough literal => ?_⟩⟩
  · have noEof := (Session.atLexemes ahead).noEof
    have takes := bare_takes isWhole token ends
    rw [← String.toList_append, ← ahead] at takes
    have draft : Draft prefixes kind numeral none none session.stream.ahead
        (lexemesOf following.toList) := .number number takes .absent fun _ => untyped
    have vets : checks.Vets session.stream.ahead (lexemesOf following.toList) :=
      (Checks.vets_takes takes).mpr (.of_unchecked (by rcases within with ⟨rfl, -⟩ | ⟨rfl, -⟩ <;> rfl))
    have usual : Grammar.defaultDatatype kind none =
        if Text.Fits64 value then Vocabulary.integer else Vocabulary.decimal := by
      rcases within with ⟨rfl, fits⟩ | ⟨rfl, wide⟩
      · exact (if_pos fits).symm
      · exact (if_neg wide).symm
    obtain ⟨stream, left, iff⟩ : ∃ stream, _ ∧ ∀ literal after,
        Reads checks (Grammar.literal ⟨prefixes, limit⟩) session literal after ↔ _ :=
      draft_read_iff draft noEof (size_lt_of_limit_le enough)
    refine ⟨stream, left, fun literal after => (iff literal after).trans ?_⟩
    simp [usual, vets]
  · have noEof := (Session.atLexemes ahead).noEof
    have passed : ∀ language ∈ (none : Option String), checks.tag language = none := by simp
    obtain ⟨rest, draft, vets⟩ := quoted_draft numeral (by simp) passed readable
    rw [Literal.renderLanguage, String.append_empty, ← ahead] at draft vets
    rw [typed_draft_read_iff draft vets noEof enough, suits_iff known, fits_text_iff]
    simp [isWhole]
  · have noEof := (Session.atLexemes ahead).noEof
    obtain ⟨rest, draft, vets⟩ := bare_draft number isWhole token readable
    rw [← ahead] at draft vets
    rw [typed_draft_read_iff draft vets noEof enough, suits_iff known]
    refine and_congr_left fun _ => ?_
    rcases within with ⟨rfl, fits⟩ | ⟨rfl, wide⟩
    · exact iff_of_true .same fits
    · exact iff_of_false (by rintro ⟨⟩) wide

theorem numeral_read_within_64_bits_past :
    let prefixes : Prefixes := Prefixes.empty.insert "" Vocabulary.xsdSpace
    let session (text : String) : Session Catalogue :=
      ⟨.ofInput "" (.ofString text), .empty .explicit⟩
    let quoted :=
      session (Literal.quote "+9223372036854775808" ++ "^^" ++ ":unsignedLong )")
    let bare := session ("+9223372036854775808" ++ "^^" ++ ":unsignedLong )")
    let expected : OwlFunctional.Literal :=
      ⟨"+9223372036854775808", Vocabulary.xsd "unsignedLong", none⟩
    (∃ after, Reads .strict (Grammar.literal ⟨prefixes, Document.limit quoted⟩) quoted expected
      after) ∧
    ∀ literal, ¬ ∃ after, Reads .strict (Grammar.literal ⟨prefixes, Document.limit bare⟩) bare
      literal after := by
  intro prefixes session quoted bare expected
  have whole : Text.wholeValue? "+9223372036854775808".toList = some 9223372036854775808 := by
    decide
  have readable : ReadableName .strict prefixes (Vocabulary.xsd "unsignedLong")
      ":unsignedLong )" :=
    ⟨9, ⟨{ source := "", ahead := lexemesOf ":unsignedLong )".toList, looksAtEnd := true
           pending := none }, .empty .explicit⟩, _, _, rfl, rfl⟩
  obtain ⟨-, typed⟩ := @numeral_read_within_64_bits Catalogue _ _ _ whole .strict prefixes
  obtain ⟨text, numeral⟩ := typed (Vocabulary.xsd "unsignedLong") _ (by decide) readable
  refine ⟨(text quoted _ (congrArg lexemesOf (Input.chars_ofString _)) (Nat.le_refl _) _).mpr rfl,
    fun literal read => ?_⟩
  have fits := (numeral bare _ (congrArg lexemesOf (Input.chars_ofString _)) (Nat.le_refl _)
    literal).mp read
  exact absurd fits.1 (by decide)

namespace Document

def assertedValue (written : String) : Input where
  bytes := ("Ontology(<o:o>DataPropertyAssertion(<a:p> <a:i> " ++ written ++ "))").toList.map
    fun letter => .ofNat letter.toNat

/-- The least number past 64 bits: bare, between quotes as an integer, and bare as an integer. -/
theorem read_numerals_past_64_bits :
    let outcome (written : String) := read { policy := .implicit } "" (assertedValue written)
    let stored (literal : OwlFunctional.Literal) : List Axiom :=
      [.dataPropertyAssertion (.named ⟨⟨"a:p"⟩⟩) (.named ⟨⟨"a:i"⟩⟩) literal]
    let bare := outcome "9223372036854775808"
    let quoted :=
      outcome "\"9223372036854775808\"^^<http://www.w3.org/2001/XMLSchema#integer>"
    let typed := outcome "9223372036854775808^^<http://www.w3.org/2001/XMLSchema#integer>"
    bare.session.store.axioms.toList.map (·.statement) =
        stored ⟨"9223372036854775808", Vocabulary.decimal, none⟩ ∧
      quoted.session.store.axioms.toList.map (·.statement) =
        stored ⟨"9223372036854775808", Vocabulary.integer, none⟩ ∧
      typed.result = .error (.malformed ⟨.literalMismatch Vocabulary.integer,
        [.operand 3 .dataPropertyAssertion, .literal],
        ⟨"", 0, "Ontology(<o:o>DataPropertyAssertion(<a:p> <a:i> "⟩⟩) ∧
      typed.session.store.axioms = #[] := by
  decide +kernel

end Document

end OwlFunctional
