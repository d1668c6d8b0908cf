import OwlFunctional.Proofs.Printing.Name

/-! What was spelled is spelled again by its written form: literals.

A literal is always written as a string, with its datatype or with its language.
-/

set_option autoImplicit false

namespace OwlFunctional

open Lexeme

/-! ## Numbers -/

namespace Text

theorem isWhole_of_isInteger64 {text : List Char} (integer : isInteger64 text = true) :
    isWhole text = true := by
  unfold isInteger64 wholeValue? at integer
  cases whole : isWhole text with
  | true => rfl
  | false => simp [whole] at integer

theorem unsigned_of_isDigits {digits : List Char} (plain : isDigits digits = true) :
    unsigned digits = digits := by
  unfold unsigned
  split
  · simp [isDigits, Char.isDigit] at plain
  · simp [isDigits, Char.isDigit] at plain
  · rfl

theorem head?_of_isDigits {digits : List Char} (plain : isDigits digits = true) {c : Char}
    (sign : c.isDigit = false) : digits.head? ≠ some c := by
  intro head
  obtain ⟨rest, rfl⟩ : ∃ rest, digits = c :: rest := ⟨_, List.eq_cons_of_mem_head? head⟩
  simp [isDigits, sign] at plain

theorem isInteger64_of_isDigits {digits : List Char} (plain : isDigits digits = true)
    (small : digitsValue digits < 9223372036854775808) : isInteger64 digits = true := by
  have bare := head?_of_isDigits plain (c := '-') rfl
  have whole : isWhole digits = true := by rw [isWhole, unsigned_of_isDigits plain, plain]
  simp only [isInteger64, wholeValue?, whole, if_true, unsigned_of_isDigits plain, if_neg bare,
    decide_eq_true_eq]
  omega

theorem isInteger64_negate {digits : List Char} (plain : unsigned digits = digits)
    (integer : isInteger64 digits = true) : isInteger64 ('-' :: digits) = true := by
  have whole := isWhole_of_isInteger64 integer
  have bare : digits.head? ≠ some '-' := by
    intro head
    cases digits with
    | nil => simp at head
    | cons c rest =>
      obtain rfl : c = '-' := by simpa using head
      simpa [unsigned] using congrArg List.length plain
  have negated : isWhole ('-' :: digits) = true := by
    rw [isWhole, plain] at whole
    exact whole
  simp only [isInteger64, wholeValue?, whole, if_true, if_neg bare, plain] at integer
  simp only [isInteger64, wholeValue?, negated, if_true, List.head?_cons, unsigned]
  simp only [decide_eq_true_eq] at integer ⊢
  omega

end Text

namespace Lexeme

variable {token : Token} {literal : String}

theorem all_continuesNumber {digits : List Char} (all : digits.all Char.isDigit = true) :
    digits.all continuesNumber = true := by
  refine List.all_eq_true.mpr fun c member => ?_
  simp [continuesNumber, List.all_eq_true.mp all c member]

/-- The literal of a whole number: a digit or a sign, and then digits. -/
def IsInteger (literal : String) : Prop :=
  ∃ first run, literal.toList = first :: run ∧ startsNumber first = true ∧
    run.all continuesNumber = true ∧ numberToken (first :: run) = .integer ∧
    Text.isInteger64 (first :: run) = true

theorem isInteger_of_isDigits {digits : List Char} (plain : Text.isDigits digits = true)
    (small : Text.digitsValue digits < 9223372036854775808) : IsInteger (.ofList digits) := by
  have bounded := Text.isInteger64_of_isDigits plain small
  cases digits with
  | nil => simp [Text.isDigits] at plain
  | cons first run =>
    obtain ⟨starts, others⟩ : first.isDigit = true ∧ run.all Char.isDigit = true := by
      simpa [Text.isDigits] using plain
    exact ⟨first, run, String.toList_ofList, by simp [startsNumber, starts],
      all_continuesNumber others, by rw [numberToken, if_pos bounded], bounded⟩

theorem Formed.isInteger (formed : Formed ⟨token, literal⟩) (kind : token = .integer) :
    IsInteger literal := by
  cases formed with
  | word => exact absurd kind (ofWord_ne rfl _)
  | @number first rest starts goesOn =>
    rcases numberToken_cases (first :: rest) with ⟨same, bounded⟩ | ⟨same, -⟩ | same
    · exact ⟨first, rest, String.toList_ofList, starts, goesOn, same, bounded⟩
    · simp [same] at kind
    · simp [same] at kind
  | iri => simp at kind
  | openIri => simp at kind
  | other _ strange => exact absurd kind strange

theorem Formed.isDecimal (formed : Formed ⟨token, literal⟩) (kind : token = .decimal) :
    Text.isDecimal literal.toList = true := by
  cases formed with
  | word => exact absurd kind (ofWord_ne rfl _)
  | @number first rest starts goesOn =>
    rcases numberToken_cases (first :: rest) with ⟨same, -⟩ | ⟨same, decimal⟩ | same
    · simp [same] at kind
    · rwa [String.toList_ofList]
    · simp [same] at kind
  | iri => simp at kind
  | openIri => simp at kind
  | other _ _ strange => exact absurd kind strange

end Lexeme

namespace Spelling

variable {input rest : List Lexeme}

/-! ## Language tags -/

/-- No lexeme goes on with a language tag if its text does not start with a hyphen. -/
theorem not_continuesTag {after : List Char} (stops : Stops after) :
    ∀ lexeme ∈ (lexemesOf after).head?, ¬ ContinuesTag lexeme := by
  intro lexeme member continues
  cases after with
  | nil => simp at member
  | cons c rest =>
    rw [lexemesOf_cons] at member
    obtain rfl : (cut c rest).lexeme = lexeme := by simpa using member
    have separates : separates c = true := stops c rfl
    have different : c ≠ '-' := by rintro rfl; revert separates; decide
    -- What goes on with a tag has a hyphen first, and only a string hides its first character.
    obtain ⟨written, stands, same⟩ := cut_covers c rest
    have start : (cut c rest).lexeme.literal.toList.head? = some '-' := by
      rcases continues with hyphen | ⟨-, sign⟩
      · rw [hyphen]
        decide
      · exact sign
    have quoted : (cut c rest).lexeme.token ≠ .string := by
      rcases continues with hyphen | ⟨kind, -⟩
      · simp [hyphen]
      · simp [kind]
    generalize (cut c rest).lexeme = lexeme at stands start quoted
    cases stands with
    | plain =>
      rw [String.toList_ofList] at start
      cases written with
      | nil => simp at start
      | cons d written =>
        obtain rfl : d = '-' := by simpa using start
        exact different (List.cons.inj same).1
    | quoted => exact quoted rfl
    | unclosed => exact quoted rfl

theorem lexemesOf_hyphen {after : List Char} (ends : ∀ c ∈ after.head?, continuesNumber c = false) :
    lexemesOf ('-' :: after) = ⟨.illegal, "-"⟩ :: lexemesOf after := by
  have cut : lexemesOf (['-'] ++ after) = _ := lexemesOf_number (by decide) rfl ends
  have illegal : numberToken ['-'] = .illegal := by decide
  rwa [illegal] at cut

section

variable {literal text : String} {after : List Char} {rest : List Lexeme}

theorem hyphenWord_scanned (word : IsWord literal) (spelled : TagRest text (lexemesOf after) rest)
    (ends : ∀ c ∈ after.head?, Text.continuesWord c = false) :
    TagRest ("-" ++ literal ++ text) (lexemesOf ('-' :: (literal.toList ++ after))) rest := by
  obtain ⟨first, run, same, starts, inside⟩ := word
  have written : literal = .ofList (first :: run) := by rw [← same, String.ofList_toList]
  have apart : ∀ c ∈ (first :: run ++ after).head?, continuesNumber c = false := by
    intro c member
    obtain rfl : first = c := by simpa using member
    exact continuesNumber_of_startsWord starts
  rw [same, lexemesOf_hyphen apart, lexemesOf_word starts inside ends, ← written]
  exact .hyphen (.inl (Token.ofWord_isWord _)) spelled

/-- A hyphen before digits is read as the sign of a number. -/
theorem hyphenInteger_scanned (integer : IsInteger literal)
    (spelled : TagRest text (lexemesOf after) rest)
    (ends : ∀ c ∈ after.head?, continuesNumber c = false) :
    TagRest ("-" ++ literal ++ text) (lexemesOf ('-' :: (literal.toList ++ after))) rest := by
  obtain ⟨first, run, same, starts, inside, kind, bounded⟩ := integer
  have written : literal = .ofList (first :: run) := by rw [← same, String.ofList_toList]
  rw [same]
  cases digit : continuesNumber first with
  | false =>
    have apart : ∀ c ∈ (first :: run ++ after).head?, continuesNumber c = false := by
      intro c member
      obtain rfl : first = c := by simpa using member
      exact digit
    rw [lexemesOf_hyphen apart, lexemesOf_number starts inside ends, kind, ← written]
    exact .hyphen (.inr rfl) spelled
  | true =>
    have negative : lexemesOf ('-' :: (first :: run) ++ after) = _ :=
      lexemesOf_number (by decide) (by simp [digit, inside]) ends
    have plain : Text.unsigned (first :: run) = first :: run := by
      unfold Text.unsigned
      split
      · next same => simp [List.cons.inj same, continuesNumber] at digit
      · next same => simp [List.cons.inj same, continuesNumber] at digit
      · rfl
    have still : numberToken ('-' :: first :: run) = .integer := by
      rw [numberToken, if_pos (Text.isInteger64_negate plain bounded)]
    have joined : String.ofList ('-' :: first :: run) = "-" ++ literal := by
      apply String.toList_injective
      simp [same]
    rw [still, joined, List.cons_append] at negative
    rw [negative]
    exact .negative (by simp) spelled

end

/-- The rest of a language tag falls into pieces again, though perhaps not into the same ones. -/
theorem TagRest.scanned {text : String} (tag : TagRest text input rest) (formed : AllFormed input)
    {after : List Char} (stops : Stops after) :
    TagRest text (lexemesOf (text.toList ++ after)) (lexemesOf after) ∧
      ∀ c ∈ (text.toList ++ after).head?, Text.continuesWord c = false ∧
        continuesNumber c = false := by
  have hyphenEnds (more : List Char) : ∀ c ∈ ('-' :: more).head?,
      Text.continuesWord c = false ∧ continuesNumber c = false := by
    intro c member
    obtain rfl : '-' = c := by simpa using member
    decide
  induction tag with
  | done ended => exact ⟨.done (not_continuesTag stops), stops.ends⟩
  | @hyphen token literal text input rest goesOn tag ih =>
    obtain ⟨spelled, ends⟩ := ih fun lexeme member => formed lexeme (by simp [member])
    have piece : Formed ⟨token, literal⟩ := formed _ (by simp)
    have whole : ("-" ++ literal ++ text).toList ++ after =
        '-' :: (literal.toList ++ (text.toList ++ after)) := by simp
    rw [whole]
    refine ⟨?_, hyphenEnds _⟩
    rcases goesOn with isWord | integer
    · exact hyphenWord_scanned (piece.isWord isWord).1 spelled fun c member => (ends c member).1
    · exact hyphenInteger_scanned (piece.isInteger integer) spelled
        fun c member => (ends c member).2
  | @negative literal text input rest sign tag ih =>
    obtain ⟨spelled, ends⟩ := ih fun lexeme member => formed lexeme (by simp [member])
    have piece : Formed ⟨.integer, literal⟩ := formed _ (by simp)
    obtain ⟨first, run, same, starts, inside, kind, -⟩ := piece.isInteger rfl
    have written : literal = .ofList (first :: run) := by rw [← same, String.ofList_toList]
    have whole : (literal ++ text).toList ++ after =
        first :: run ++ (text.toList ++ after) := by simp [same]
    rw [whole, lexemesOf_number starts inside fun c member => (ends c member).2, kind, ← written]
    refine ⟨.negative sign spelled, ?_⟩
    obtain rfl : first = '-' := by simpa [same] using sign
    exact hyphenEnds _

theorem Language.printed {tag : String} (spelled : Language (some tag) input rest)
    (formed : AllFormed input) : Printed (Language (some tag)) ('@' :: tag.toList) := by
  cases spelled with
  | @tag token literal text _ first second _ mark isWord takes others =>
    have formedFirst := mark.isLocal.formed formed
    have formedSecond := (Takes.isLocal takes).formed formedFirst
    obtain ⟨start, run, same, starts, inside⟩ := ((Takes.formed takes formedFirst).isWord isWord).1
    have written : literal = .ofList (start :: run) := by rw [← same, String.ofList_toList]
    intro input after stops alike
    obtain ⟨pieces, ends⟩ := others.scanned formedSecond stops
    have whole : (literal ++ text).toList ++ after = start :: run ++ (text.toList ++ after) := by
      simp [same]
    have word := lexemesOf_word starts inside fun c member => (ends c member).1
    rw [List.cons_append, whole] at alike
    rw [← written] at word
    have first : Takes ⟨.ofWord literal, literal⟩
        (lexemesOf (start :: run ++ (text.toList ++ after))) (lexemesOf (text.toList ++ after)) := by
      rw [Takes, word, significant_cons (ofWord_isTrivia literal)]
    exact .tag (shut_atSign _ _ alike) (Token.ofWord_isWord literal) first pieces

/-! ## Literals -/

theorem shut_string (value : String) :
    Shut (Takes ⟨.string, .ofList (Text.escape value.toList)⟩) (Literal.quote value).toList := by
  refine .ofTakes rfl fun after => ?_
  have text : (Literal.quote value).toList ++ after =
      '"' :: (Text.escape value.toList ++ '"' :: after) := by
    simp [OwlFunctional.Literal.quote]
  rw [text, lexemesOf_string]

theorem string_literal {prefixes : Prefixes} {value : String} {language : Option String}
    {suffix : Option Iri} {first second : List Lexeme}
    (takes : Takes ⟨.string, .ofList (Text.escape value.toList)⟩ input first)
    (tagged : Language language first second) (typed : Suffix prefixes suffix second rest)
    (suits : ∀ datatype ∈ suffix, Suits .text value language datatype) :
    Literal prefixes ⟨value, suffix.getD (stringDatatype language), language⟩ input rest :=
  .string takes (by simp [Text.unescape_escape]) tagged typed suits

theorem printed_literal {value : String} {datatype : Iri} {language : Option String}
    (writable : datatype.Writable) (suits : Suits .text value language datatype)
    (tagged : ∀ tag, language = some tag → Printed (Language (some tag)) ('@' :: tag.toList))
    (prefixes : Prefixes) :
    Printed (Literal prefixes ⟨value, datatype, language⟩)
      (OwlFunctional.Literal.render ⟨value, datatype, language⟩).toList := by
  have typed : Shut (Suffix prefixes (some datatype)) ('^' :: '^' :: datatype.render.toList) :=
    (shut_doubleCaret.appendShut (shut_name writable prefixes.resolve?)).imp
      fun ⟨_, mark, name⟩ => .datatype mark name
  cases language with
  | none =>
    have text : (OwlFunctional.Literal.render ⟨value, datatype, none⟩).toList =
        (Literal.quote value).toList ++ '^' :: '^' :: datatype.render.toList := by
      simp [OwlFunctional.Literal.render]
    rw [text]
    exact ((shut_string value).appendShut typed).printed.imp fun ⟨_, takes, typed⟩ =>
      string_literal takes .absent typed (by simpa using suits)
  | some tag =>
    -- The datatype of tagged text is left out where it is the one that a tag implies.
    by_cases implied : datatype = Vocabulary.langString
    · subst implied
      have text : (OwlFunctional.Literal.render ⟨value, Vocabulary.langString, some tag⟩).toList =
          (Literal.quote value).toList ++ '@' :: tag.toList := by
        simp [OwlFunctional.Literal.render]
      rw [text]
      exact ((shut_string value).append (tagged tag rfl)).imp fun ⟨_, takes, tagged⟩ =>
        string_literal takes tagged .absent (by simp)
    · have text : (OwlFunctional.Literal.render ⟨value, datatype, some tag⟩).toList =
          (Literal.quote value).toList ++
            ('@' :: tag.toList ++ '^' :: '^' :: datatype.render.toList) := by
        simp [OwlFunctional.Literal.render, implied]
      rw [text]
      have parts := (shut_string value).appendShut
        ((tagged tag rfl).appendShut typed (by decide))
      exact parts.printed.imp fun ⟨_, takes, _, tagged, typed⟩ =>
        string_literal takes tagged typed (by simpa using suits)

theorem Suits.quoted {kind : LiteralKind} {value : String} {datatype : Iri}
    (suits : Suits kind value none datatype)
    (number : ∀ expected, Fits kind expected value none → Fits .text expected value none) :
    Suits .text value none datatype :=
  fun expected known => number expected (suits expected known)

theorem fits_whole {value : String} (integer : IsInteger value) (expected : LiteralKind)
    (fits : Fits .whole expected value none) : Fits .text expected value none := by
  cases fits
  obtain ⟨first, run, same, -, -, -, bounded⟩ := integer
  exact .whole (by rw [same]; exact Text.isWhole_of_isInteger64 bounded)

theorem fits_decimal {value : String} (decimal : Text.isDecimal value.toList = true)
    (expected : LiteralKind) (fits : Fits .decimal expected value none) :
    Fits .text expected value none := by
  cases fits
  exact .decimal decimal

theorem suits_of_kind {kind : LiteralKind} {datatype : Iri} (value : String)
    (language : Option String) (known : ∀ found ∈ Vocabulary.datatypeKind? datatype, found = kind) :
    Suits kind value language datatype := by
  intro expected found
  rw [known expected found]
  exact .same

theorem suits_getD {kind : LiteralKind} {value : String} {language : Option String}
    {suffix : Option Iri} {usual : Iri} (given : ∀ datatype ∈ suffix, Suits kind value language datatype)
    (known : ∀ found ∈ Vocabulary.datatypeKind? usual, found = kind) :
    Suits kind value language (suffix.getD usual) := by
  cases suffix with
  | none => exact suits_of_kind value language known
  | some datatype => exact given datatype rfl

theorem Suffix.writable {prefixes : Prefixes} {suffix : Option Iri} {usual : Iri}
    (spelled : Suffix prefixes suffix input rest) (formed : AllFormed input)
    (writable : prefixes.Writable) (usualWritable : usual.Writable) :
    (suffix.getD usual).Writable := by
  cases spelled with
  | absent => exact usualWritable
  | datatype mark name =>
    exact name.writable (mark.isLocal.formed formed) (writesNames_resolve writable)

theorem stringDatatype_usual (language : Option String) :
    (∀ found ∈ Vocabulary.datatypeKind? (stringDatatype language), found = .text) ∧
      (stringDatatype language).Writable := by
  have plain : (∀ found ∈ Vocabulary.datatypeKind? Vocabulary.string, found = .text) ∧
      Vocabulary.string.Writable := by decide
  have tagged : (∀ found ∈ Vocabulary.datatypeKind? Vocabulary.langString, found = .text) ∧
      Vocabulary.langString.Writable := by decide
  cases language with
  | none => exact plain
  | some tag => exact tagged

/-- A spelled literal suits its datatype when its value is taken for a string. -/
theorem Literal.suits {prefixes : Prefixes} {literal : OwlFunctional.Literal}
    (spelled : Literal prefixes literal input rest) (formed : AllFormed input) :
    Suits .text literal.value literal.language literal.datatype := by
  cases spelled with
  | boolean takes =>
    have known : ∀ found ∈ Vocabulary.datatypeKind? Vocabulary.boolean, found = .text := by decide
    exact suits_of_kind _ _ known
  | @integer value suffix _ _ _ takes typed given =>
    have suits : Suits .whole value none (suffix.getD Vocabulary.integer) :=
      suits_getD given (by decide)
    exact suits.quoted (fits_whole ((Takes.formed takes formed).isInteger rfl))
  | @decimal value suffix _ _ _ takes typed given =>
    have suits : Suits .decimal value none (suffix.getD Vocabulary.decimal) :=
      suits_getD given (by decide)
    exact suits.quoted (fits_decimal ((Takes.formed takes formed).isDecimal rfl))
  | string takes value tagged typed given =>
    exact suits_getD given (stringDatatype_usual _).1

theorem Literal.printed {prefixes : Prefixes} {literal : OwlFunctional.Literal}
    (spelled : Literal prefixes literal input rest) (formed : AllFormed input)
    (writable : prefixes.Writable) (other : Prefixes) :
    Printed (Literal other literal) literal.render.toList := by
  have suits := spelled.suits formed
  cases spelled with
  | boolean takes =>
    have plain : Vocabulary.boolean.Writable := by decide
    exact printed_literal plain suits (by simp) other
  | integer takes typed | decimal takes typed =>
    have formedLater := (Takes.isLocal takes).formed formed
    exact printed_literal (typed.writable formedLater writable (by decide)) suits (by simp) other
  | @string inside value language suffix _ _ _ _ takes _ tagged typed =>
    have formedTag := (Takes.isLocal takes).formed formed
    have formedType := tagged.framed.formed formedTag
    have usual := (stringDatatype_usual language).2
    refine printed_literal (typed.writable formedType writable usual) suits
      (fun tag same => ?_) other
    subst same
    exact tagged.printed formedTag

theorem Literal.renders {prefixes other : Prefixes} {literal : OwlFunctional.Literal}
    (spelled : Literal prefixes literal input rest) (writable : prefixes.Writable) :
    Renders (Literal other literal) literal.render input rest := fun formed =>
  ⟨spelled.framed.formed formed, spelled.printed formed writable other⟩

end Spelling

end OwlFunctional
