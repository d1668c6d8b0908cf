import Mathlib.Algebra.Group.Nat.Defs
import OwlFunctional.Proofs.Cutting
import OwlFunctional.Proofs.Drafts
import OwlFunctional.Proofs.Literals
import OwlFunctional.Proofs.Subtags

/-! How much of a well-formed language tag is read.

A tag is no lexeme of its own. A hyphen and the digits after it are a number, so a subtag that
starts with digits and goes on with letters falls apart, and the tag ends between the two. All
other tags are read whole.
-/

set_option autoImplicit false

namespace OwlFunctional

open Lexeme Spelling

namespace Text

/-! ## ASCII characters in words and numbers -/

theorem startsWord_of_isAlpha {c : Char} (letter : c.isAlpha = true) : startsWord c = true := by
  have small : c.toNat < 0x80 := by
    have either : (decide (65 ≤ c.val ∧ c.val ≤ 90) ||
        (decide (97 ≤ c.val) && decide (c.val ≤ 122))) = true := letter
    simp only [Bool.or_eq_true, Bool.and_eq_true, decide_eq_true_eq,
      UInt32.le_iff_toNat_le] at either
    change 65 ≤ c.toNat ∧ c.toNat ≤ 90 ∨ 97 ≤ c.toNat ∧ c.toNat ≤ 122 at either
    omega
  rw [startsWord, isLetter, if_pos small, letter, Bool.true_or]

theorem continuesWord_of_isAlphanum {c : Char} (plain : c.isAlphanum = true) :
    continuesWord c = true := by
  rcases Bool.or_eq_true_iff.mp plain with letter | digit
  · exact continuesWord_of_startsWord (startsWord_of_isAlpha letter)
  · have range := Char.isDigit_iff_toNat.mp digit
    have small : c.toNat < 0x80 := Nat.lt_of_le_of_lt range.2 (by decide)
    have number : isNumber c = true := by rw [isNumber, if_pos small, digit]
    simp [continuesWord, number]

theorem digitsValue_lt {digits : List Char} (all : digits.all Char.isDigit = true) :
    digitsValue digits < 10 ^ digits.length := by
  have bounded (value : Nat) : digits.foldl (fun value digit =>
      10 * value + (digit.toNat - '0'.toNat)) value < (value + 1) * 10 ^ digits.length := by
    induction digits generalizing value with
    | nil =>
      rw [List.foldl_nil, List.length_nil, Nat.pow_zero, Nat.mul_one]
      exact Nat.lt_succ_self value
    | cons digit digits ih =>
      obtain ⟨first, others⟩ := Bool.and_eq_true_iff.mp all
      have range : digit.toNat ≤ 57 := (Char.isDigit_iff_toNat.mp first).2
      have zero : '0'.toNat = 48 := rfl
      rw [List.foldl_cons, List.length_cons]
      refine Nat.lt_of_lt_of_le (ih others _) ?_
      rw [Nat.pow_succ, ← Nat.mul_assoc, Nat.mul_right_comm]
      exact Nat.mul_le_mul_right _ (by omega)
  have whole := bounded 0
  rwa [Nat.zero_add, Nat.one_mul] at whole

end Text

namespace LanguageTag

/-- A subtag that starts with a digit and holds a letter. -/
def Mixed (subtag : List Char) : Prop :=
  subtag.head?.any Char.isDigit = true ∧ subtag.any Char.isAlpha = true

instance : DecidablePred Mixed := fun _ => inferInstanceAs (Decidable (_ ∧ _))

theorem isDigit_of_isAlpha {c : Char} (letter : c.isAlpha = true) : c.isDigit = false := by
  have word := Text.startsWord_of_isAlpha letter
  cases digit : c.isDigit with
  | false => rfl
  | true => simp [Text.startsWord_of_isDigit digit] at word

theorem isWord_of_isAlpha {first : Char} {run : List Char} (letter : first.isAlpha = true)
    (plain : run.all Char.isAlphanum = true) : IsWord (.ofList (first :: run)) :=
  ⟨first, run, String.toList_ofList, Text.startsWord_of_isAlpha letter, List.all_eq_true.mpr
    fun c member => Text.continuesWord_of_isAlphanum (List.all_eq_true.mp plain c member)⟩

theorem isInteger_of_digits {digits : List Char} (all : digits.all Char.isDigit = true)
    (nonempty : digits ≠ []) (short : digits.length ≤ maxSize) : IsInteger (.ofList digits) := by
  have plain : Text.isDigits digits = true := by simp [Text.isDigits, nonempty, all]
  have small : Text.digitsValue digits < 10 ^ maxSize :=
    Nat.lt_of_lt_of_le (Text.digitsValue_lt all) (Nat.pow_le_pow_right (by decide) short)
  exact isInteger_of_isDigits plain (Nat.lt_trans small (by decide))

theorem Piece.cases {subtag : List Char} (piece : Piece subtag) :
    ¬ Mixed subtag ∧ (IsWord (.ofList subtag) ∨ IsInteger (.ofList subtag)) ∨
      Mixed subtag ∧ ∃ digits c run, subtag = digits ++ c :: run ∧ IsInteger (.ofList digits) ∧
        c.isAlpha = true := by
  obtain ⟨nonempty, plain, short⟩ := piece
  obtain ⟨first, run, rfl⟩ := List.exists_cons_of_ne_nil nonempty
  have kinds (c : Char) (member : c ∈ first :: run) : c.isAlpha = true ∨ c.isDigit = true :=
    Bool.or_eq_true_iff.mp (List.all_eq_true.mp plain c member)
  rcases kinds first List.mem_cons_self with letter | digit
  · -- A word goes on with whatever a subtag may hold.
    refine .inl ⟨?_, .inl (isWord_of_isAlpha letter (Bool.and_eq_true_iff.mp plain).2)⟩
    rintro ⟨digit, -⟩
    simp [isDigit_of_isAlpha letter] at digit
  · by_cases all : (first :: run).all Char.isDigit = true
    · refine .inl ⟨?_, .inr (isInteger_of_digits all nonempty short)⟩
      rintro ⟨-, some⟩
      obtain ⟨c, member, letter⟩ := List.any_eq_true.mp some
      simpa [isDigit_of_isAlpha letter] using List.all_eq_true.mp all c member
    · have whole := List.takeWhile_append_dropWhile (p := Char.isDigit) (l := first :: run)
      have digits := List.all_takeWhile (p := Char.isDigit) (l := first :: run)
      -- A number ends at the first letter, and that letter begins a word.
      have started : (first :: run).takeWhile Char.isDigit ≠ [] := by simp [digit]
      have fewer := (List.takeWhile_prefix (l := first :: run) Char.isDigit).length_le
      have ended := dropWhile_ends Char.isDigit (first :: run)
      generalize (first :: run).takeWhile Char.isDigit = before at *
      generalize (first :: run).dropWhile Char.isDigit = behind at *
      cases behind with
      | nil => exact absurd (by simpa [← whole] using digits) all
      | cons c rest =>
        have member : c ∈ first :: run := by simp [← whole]
        have letter : c.isAlpha = true := (kinds c member).resolve_right (by simp [ended c rfl])
        have mixed : Mixed (first :: run) := ⟨digit, List.any_eq_true.mpr ⟨c, member, letter⟩⟩
        exact .inr ⟨mixed, before, c, rest, whole.symm,
          isInteger_of_digits digits started (Nat.le_trans fewer short), letter⟩

/-! ## Where a tag ends -/

theorem not_continuesTag_of_isAlpha {c : Char} (letter : c.isAlpha = true) (rest : List Char) :
    ∀ lexeme ∈ (lexemesOf (c :: rest)).head?, ¬ ContinuesTag lexeme := by
  intro lexeme member
  rw [lexemesOf_cons, cut_word (Text.startsWord_of_isAlpha letter)] at member
  obtain rfl := Option.some.inj member
  rintro (hyphen | ⟨integer, -⟩)
  · exact ofWord_ne rfl _ (congrArg Lexeme.token hyphen)
  · exact ofWord_ne rfl _ integer

theorem firstLexeme_isWord {c : Char} (letter : c.isAlpha = true) (rest : List Char) :
    (firstLexeme (lexemesOf (c :: rest))).token.isWord = true := by
  rw [lexemesOf_cons, cut_word (Text.startsWord_of_isAlpha letter), firstLexeme]
  change ((significant (⟨Token.ofWord _, _⟩ :: _)).head?.getD .eof).token.isWord = true
  rw [significant_cons (ofWord_isTrivia _)]
  exact Token.ofWord_isWord _

theorem hyphens_end (pieces : List (List Char)) {after : List Char} (stops : Stops after) :
    ∀ c ∈ (pieces.flatMap ('-' :: ·) ++ after).head?,
      Text.continuesWord c = false ∧ continuesNumber c = false := by
  cases pieces with
  | nil => exact stops.ends
  | cons next pieces =>
    rintro _ ⟨⟩
    decide

theorem pieces_scanned {pieces : List (List Char)} (each : ∀ piece ∈ pieces, Piece piece)
    {after : List Char} (stops : Stops after) :
    ∃ kept lost, pieces.flatMap ('-' :: ·) = kept ++ lost ∧
      TagRest (.ofList kept) (lexemesOf (kept ++ (lost ++ after))) (lexemesOf (lost ++ after)) ∧
      (lost = [] ↔ ∀ piece ∈ pieces, ¬ Mixed piece) ∧ ∀ c ∈ lost.head?, c.isAlpha = true := by
  -- The first mixed piece ends the tag: what the induction found behind it is lost with its letters.
  induction pieces with
  | nil => exact ⟨[], [], rfl, .done (not_continuesTag stops), by simp, by simp⟩
  | cons piece pieces ih =>
    obtain ⟨kept, lost, same, spelled, whole, letter⟩ :=
      ih fun other member => each other (List.mem_cons_of_mem _ member)
    have ends := hyphens_end pieces stops
    rw [same, List.append_assoc] at ends
    rcases (each piece List.mem_cons_self).cases with
      ⟨plain, kind⟩ | ⟨mixed, digits, c, run, rfl, integer, starts⟩
    · refine ⟨'-' :: (piece ++ kept), lost, by simp [same], ?_, by simp [whole, plain], letter⟩
      have joined : String.ofList ('-' :: (piece ++ kept)) =
          "-" ++ .ofList piece ++ .ofList kept := String.toList_injective (by simp)
      have split : '-' :: (piece ++ kept) ++ (lost ++ after) =
          '-' :: ((String.ofList piece).toList ++ (kept ++ (lost ++ after))) := by simp
      rw [joined, split]
      rcases kind with word | integer
      · exact hyphenWord_scanned word spelled fun c member => (ends c member).1
      · exact hyphenInteger_scanned integer spelled fun c member => (ends c member).2
    · refine ⟨'-' :: digits, c :: run ++ (kept ++ lost), by simp [same], ?_, by simp [mixed],
        by simpa using starts⟩
      have done := TagRest.done
        (not_continuesTag_of_isAlpha starts (run ++ (kept ++ lost) ++ after))
      have apart : ∀ d ∈ (c :: (run ++ (kept ++ lost) ++ after)).head?,
          continuesNumber d = false := by
        rintro _ ⟨⟩
        exact continuesNumber_of_startsWord (Text.startsWord_of_isAlpha starts)
      have number := hyphenInteger_scanned integer done apart
      have joined : String.ofList ('-' :: digits) = "-" ++ .ofList digits ++ "" :=
        String.toList_injective (by simp)
      rw [joined]
      simpa using number

/-- A well-formed tag is spelled, or the part of it before the letters of a mixed subtag is. -/
theorem tag_spelled {tag : String} (wellFormed : refusal? tag = none) {after : List Char}
    (stops : Stops after) :
    ∃ kept lost : String, tag = kept ++ lost ∧
      (lost = "" ↔ ∀ piece ∈ (split tag.toList).tail, ¬ Mixed piece) ∧
      (∀ c ∈ lost.toList.head?, c.isAlpha = true) ∧
      Language (some kept) (lexemesOf ('@' :: (tag.toList ++ after)))
        (lexemesOf (lost.toList ++ after)) := by
  have whole := joined_split tag.toList
  have parted := parted_of_wellFormed wellFormed
  generalize split tag.toList = subtags at whole parted ⊢
  cases subtags with
  | nil => exact parted.elim
  | cons stem pieces =>
    obtain ⟨⟨nonempty, letters⟩, each⟩ := parted
    obtain ⟨kept, lost, same, spelled, all, letter⟩ := pieces_scanned each stops
    have ends := hyphens_end pieces stops
    rw [same, List.append_assoc] at ends
    have text : tag.toList = stem ++ (kept ++ lost) := by rw [← whole, joined, same]
    refine ⟨.ofList (stem ++ kept), .ofList lost, String.toList_injective (by simp [text]),
      by simp [all], by simpa using letter, ?_⟩
    have mark : Mark .atSign (lexemesOf ('@' :: (tag.toList ++ after)))
        (lexemesOf (tag.toList ++ after)) := shut_atSign _ _ rfl
    have word : Takes ⟨.ofWord (.ofList stem), .ofList stem⟩ (lexemesOf (tag.toList ++ after))
        (lexemesOf (kept ++ (lost ++ after))) := by
      obtain ⟨first, run, rfl⟩ := List.exists_cons_of_ne_nil nonempty
      obtain ⟨start, others⟩ := Bool.and_eq_true_iff.mp letters
      have inside : run.all Text.continuesWord = true := List.all_eq_true.mpr fun c member =>
        Text.continuesWord_of_startsWord
          (Text.startsWord_of_isAlpha (List.all_eq_true.mp others c member))
      have lexemes := lexemesOf_word (Text.startsWord_of_isAlpha start) inside
        fun c member => (ends c member).1
      rw [text, List.append_assoc, List.append_assoc, Takes, lexemes,
        significant_cons (ofWord_isTrivia _)]
    rw [String.ofList_append, String.toList_ofList]
    exact .tag mark (Token.ofWord_isWord _) word spelled

end LanguageTag

/-! ## Strings with a language -/

theorem tagged_read_iff {σ : Type} [Store σ] {checks : Checks} {scope : Scope}
    {session : Session σ} {value tag : String} {first rest : List Lexeme}
    (takes : Takes ⟨.string, .ofList (Text.escape value.toList)⟩ session.stream.ahead first)
    (tagged : Language (some tag) first rest) (noEof : session.stream.NoEof)
    (enough : size session.stream.ahead < scope.limit)
    (untyped : (firstLexeme rest).token ≠ .doubleCaret) :
    ∃ stream, significant stream.ahead = significant rest ∧ ∀ literal after,
      Reads checks (Grammar.literal scope) session literal after ↔
        checks.tag tag = none ∧ literal = ⟨value, Vocabulary.langString, some tag⟩ ∧
        after = ⟨stream, session.store⟩ := by
  have draft : Draft scope.prefixes .text value (some tag) none session.stream.ahead rest :=
    .string takes (by simp [Text.unescape_escape]) tagged (by simp) .absent fun _ => untyped
  -- The tag is all that is checked of these lexemes.
  have vets : checks.Vets session.stream.ahead rest ↔ checks.tag tag = none := by
    obtain ⟨ended, iff⟩ := checks.vets_language tagged
    have string : checks.Vets session.stream.ahead first :=
      (Checks.vets_takes takes).mpr (.of_unchecked rfl)
    rw [Checks.vets_trans_iff takes.suffix ended, iff]
    simp [string]
  obtain ⟨stream, left, iff⟩ := draft_read_iff draft noEof enough
  refine ⟨stream, left, fun literal after => (iff literal after).trans ?_⟩
  rw [vets]
  simp [Grammar.defaultDatatype]

theorem tagged_read {σ : Type} [Store σ] {checks : Checks} {scope : Scope} {session : Session σ}
    {value tag : String} {first rest : List Lexeme}
    (takes : Takes ⟨.string, .ofList (Text.escape value.toList)⟩ session.stream.ahead first)
    (tagged : Language (some tag) first rest) (noEof : session.stream.NoEof)
    (enough : size session.stream.ahead < scope.limit)
    (untyped : (firstLexeme rest).token ≠ .doubleCaret) (passed : checks.tag tag = none) :
    ∃ stream, Reads checks (Grammar.literal scope) session
        ⟨value, Vocabulary.langString, some tag⟩ ⟨stream, session.store⟩ ∧
      significant stream.ahead = significant rest := by
  obtain ⟨stream, left, iff⟩ := tagged_read_iff takes tagged noEof enough untyped
  exact ⟨stream, (iff _ _).mpr ⟨passed, rfl, rfl⟩, left⟩

theorem tagged_read_unique {σ : Type} [Store σ] {checks : Checks} {scope : Scope}
    {session after : Session σ} {value tag : String} {first rest : List Lexeme}
    {literal : OwlFunctional.Literal}
    (takes : Takes ⟨.string, .ofList (Text.escape value.toList)⟩ session.stream.ahead first)
    (tagged : Language (some tag) first rest) (noEof : session.stream.NoEof)
    (enough : size session.stream.ahead < scope.limit)
    (untyped : (firstLexeme rest).token ≠ .doubleCaret)
    (read : Reads checks (Grammar.literal scope) session literal after) :
    literal = ⟨value, Vocabulary.langString, some tag⟩ := by
  obtain ⟨stream, -, iff⟩ := tagged_read_iff takes tagged noEof enough untyped
  exact ((iff _ _).mp read).2.1

/-- A well-formed tag after a string is read whole, with its check and without, if no subtag after
the first is mixed. Otherwise no more of it is read than comes before the letters of such a subtag,
and nothing at all if that is refused as a tag. -/
theorem tag_read_unless_mixed {σ : Type} [Store σ] {prefixes : Prefixes} {limit : Nat}
    {session : Session σ} {value tag following : String}
    (wellFormed : LanguageTag.refusal? tag = none) (ends : Ends following.toList)
    (untyped : (firstLexeme (lexemesOf following.toList)).token ≠ .doubleCaret)
    (ahead : session.stream.ahead =
      lexemesOf (Literal.quote value ++ "@" ++ tag ++ following).toList)
    (enough : Document.limit session ≤ limit) :
    ((∀ piece ∈ (LanguageTag.split tag.toList).tail, ¬ LanguageTag.Mixed piece) →
      ∀ settings : Settings, ∃ stream,
        Reads settings.checks (Grammar.literal ⟨prefixes, limit⟩) session
          ⟨value, Vocabulary.langString, some tag⟩ ⟨stream, session.store⟩ ∧
        significant stream.ahead = significant (lexemesOf following.toList)) ∧
    ((∃ piece ∈ (LanguageTag.split tag.toList).tail, LanguageTag.Mixed piece) →
      ∃ kept lost, tag = kept ++ lost ∧ (∃ c ∈ lost.toList.head?, c.isAlpha = true) ∧
        ∀ settings : Settings,
          (settings.checks.tag kept = none → ∃ stream,
            Reads settings.checks (Grammar.literal ⟨prefixes, limit⟩) session
              ⟨value, Vocabulary.langString, some kept⟩ ⟨stream, session.store⟩ ∧
            significant stream.ahead = significant (lexemesOf (lost ++ following).toList)) ∧
          ∀ literal after,
            Reads settings.checks (Grammar.literal ⟨prefixes, limit⟩) session literal after →
            literal = ⟨value, Vocabulary.langString, some kept⟩) := by
  obtain ⟨kept, lost, same, all, letter, tagged⟩ :=
    LanguageTag.tag_spelled wellFormed ends.stops
  have noEof := (Session.atLexemes ahead).noEof
  have fewer : size session.stream.ahead < limit :=
    Nat.lt_of_lt_of_le (Nat.lt_succ_of_le (size_le_length _)) enough
  have takes : Takes ⟨.string, .ofList (Text.escape value.toList)⟩ session.stream.ahead
      (lexemesOf ('@' :: (tag.toList ++ following.toList))) :=
    shut_string value _ _ (by simp [ahead])
  constructor
  · intro plain settings
    obtain rfl : lost = "" := all.mpr plain
    obtain rfl : tag = kept := by simpa using same
    -- A strict document asks for what `wellFormed` says, and any other for nothing.
    have passed : settings.checks.tag tag = none := by
      unfold Settings.checks
      split
      · exact wellFormed
      · rfl
    exact tagged_read takes tagged noEof fewer untyped passed
  · rintro ⟨piece, member, mixed⟩
    have broken : lost ≠ "" := fun none => all.mp none piece member mixed
    refine ⟨kept, lost, same, ?_⟩
    rw [String.toList_append]
    obtain ⟨c, rest, left⟩ : ∃ c rest, lost.toList = c :: rest :=
      List.exists_cons_of_ne_nil (by simpa using broken)
    rw [left] at letter tagged ⊢
    have starts := letter c rfl
    -- What is lost starts a word, and so no datatype can follow what is kept.
    have isWord : (firstLexeme (lexemesOf (c :: rest ++ following.toList))).token.isWord = true :=
      LanguageTag.firstLexeme_isWord starts _
    have other : (firstLexeme (lexemesOf (c :: rest ++ following.toList))).token ≠
        .doubleCaret := fun typed => by
      rw [typed] at isWord
      exact Bool.noConfusion isWord
    exact ⟨⟨c, rfl, starts⟩, fun settings => ⟨tagged_read takes tagged noEof fewer other,
      fun literal after => tagged_read_unique takes tagged noEof fewer other⟩⟩

theorem tag_read_unless_mixed_long :
    let following := " @en # ^^\n )"
    let written := Literal.quote "a\\\"" ++ "@" ++ "de-Latn-DE-1996-x-007-true" ++ following
    let session : Session Catalogue := ⟨.ofInput "" (.ofString written), .empty .explicit⟩
    ∃ stream, Reads .strict (Grammar.literal ⟨.empty, Document.limit session⟩) session
        ⟨"a\\\"", Vocabulary.langString, some "de-Latn-DE-1996-x-007-true"⟩
        ⟨stream, session.store⟩ ∧
      significant stream.ahead = significant (lexemesOf following.toList) := by
  have ends : Ends " @en # ^^\n )".toList := ⟨' ', _, rfl, .inl rfl⟩
  exact (tag_read_unless_mixed (by decide) ends (by decide)
    (congrArg lexemesOf (Input.chars_ofString _)) (Nat.le_refl _)).1 (by decide) { strict := true }

/-- The registered variant of Belarusian of 1959 is cut after its year, with the check of tags and
without it. The letters are left where only the end of an axiom may stand. -/
theorem tag_cut_after_year :
    let session : Session Catalogue :=
      ⟨{ source := "", ahead := lexemesOf "\"x\"@be-1959acad)".toList, looksAtEnd := false
         pending := none }, .empty .explicit⟩
    LanguageTag.refusal? "be-1959acad" = none ∧
      ∀ checks ∈ [Checks.lenient, Checks.strict],
        (∃ after, Reads checks (Grammar.literal ⟨.empty, Document.limit session⟩) session
            ⟨"x", Vocabulary.langString, some "be-1959"⟩ after ∧
          significant after.stream.ahead = [⟨.word, "acad"⟩, ⟨.closeParen, ")"⟩]) ∧
        ¬ ∃ after, Reads checks (Grammar.literal ⟨.empty, Document.limit session⟩) session
            ⟨"x", Vocabulary.langString, some "be-1959acad"⟩ after := by
  intro session
  have ahead : session.stream.ahead = [⟨.string, "x"⟩, ⟨.atSign, "@"⟩, ⟨.word, "be"⟩,
      ⟨.integer, "-1959"⟩, ⟨.word, "acad"⟩, ⟨.closeParen, ")"⟩] := by decide
  refine ⟨by decide, fun checks member => ?_⟩
  have passed : checks.tag "be-1959" = none := by
    rcases List.mem_pair.mp member with rfl | rfl
    · rfl
    · decide
  have tagged : Language (some ("be" ++ ("-1959" ++ ""))) [⟨.atSign, "@"⟩, ⟨.word, "be"⟩,
      ⟨.integer, "-1959"⟩, ⟨.word, "acad"⟩, ⟨.closeParen, ")"⟩]
      [⟨.word, "acad"⟩, ⟨.closeParen, ")"⟩] :=
    .tag ⟨"@", rfl⟩ rfl rfl (.negative rfl (.done (by simp [ContinuesTag])))
  have takes : Takes ⟨.string, .ofList (Text.escape "x".toList)⟩ session.stream.ahead _ :=
    (congrArg significant ahead).trans rfl
  have noEof := (Session.atLexemes (rfl : session.stream.ahead = lexemesOf _)).noEof
  have fewer : size session.stream.ahead < Document.limit session :=
    Nat.lt_succ_of_le (size_le_length _)
  constructor
  · have cut : ∃ stream, Reads checks (Grammar.literal ⟨.empty, Document.limit session⟩) session
        ⟨"x", Vocabulary.langString, some "be-1959"⟩ ⟨stream, session.store⟩ ∧ _ :=
      tagged_read takes tagged noEof fewer (by decide) passed
    obtain ⟨stream, read⟩ := cut
    exact ⟨_, read⟩
  · rintro ⟨after, whole⟩
    exact absurd (tagged_read_unique takes tagged noEof fewer (by decide) whole) (by decide)

end OwlFunctional
