import OwlFunctional.Proofs.Acceptance.Expression
import OwlFunctional.Proofs.Literals
import OwlFunctional.Proofs.Numerals

/-! Restrictions and the numbers they count with.

Whether a restriction takes a number is known when the number has been passed over: it has no sign
but a plus and the bound of 32 bits. So a refused number is told before anything after it is read,
and an accepted one is left as it is by what is read later.
-/

set_option autoImplicit false

namespace OwlFunctional

open Lexeme
open Spelling (Opens)

/-! ## Numbers to count with -/

namespace Text

theorem isDigits_and_value_iff {digits : List Char} {count : UInt32} :
    (if isDigits digits && digitsValue digits < UInt32.size then
      some (UInt32.ofNat (digitsValue digits)) else none) = some count ↔
      isDigits digits = true ∧ positionalValue digits = count.toNat := by
  rw [digitsValue_eq_positionalValue]
  constructor
  · intro counted
    split at counted
    · next both =>
      obtain ⟨plain, small⟩ := Bool.and_eq_true_iff.mp both
      have bound : positionalValue digits < 2 ^ 32 := of_decide_eq_true small
      obtain rfl := Option.some.inj counted
      exact ⟨plain, (UInt32.toNat_ofNat_of_lt' bound).symm⟩
    · cases counted
  · rintro ⟨plain, value⟩
    have small : count.toNat < UInt32.size := count.toNat_lt
    simp [plain, value, small]

theorem cardinality?_eq_some_iff {text : List Char} {count : UInt32} :
    cardinality? text = some count ↔ text.head? ≠ some '-' ∧ Denotes text count.toNat := by
  -- A plus is taken off before the digits are counted. A hyphen is left there, and is no digit.
  by_cases plus : text.head? = some '+'
  · obtain ⟨rest, rfl⟩ : ∃ rest, text = '+' :: rest := ⟨_, List.eq_cons_of_mem_head? plus⟩
    have signed : cardinality? ('+' :: rest) = some count ↔
        isDigits rest = true ∧ positionalValue rest = count.toNat := isDigits_and_value_iff
    rw [signed]
    constructor
    · rintro ⟨plain, value⟩
      exact ⟨by simp, value ▸ .plus plain⟩
    · rintro ⟨-, denotes⟩
      generalize same : (count.toNat : Int) = value at denotes
      cases denotes with
      | bare plain => exact absurd rfl (head?_of_isDigits plain (c := '+') rfl)
      | plus plain => exact ⟨plain, by omega⟩
  · have unsigned : cardinality? text = some count ↔
        isDigits text = true ∧ positionalValue text = count.toNat := by
      rw [← isDigits_and_value_iff]
      unfold cardinality?
      split
      · exact absurd rfl plus
      · rfl
    rw [unsigned]
    constructor
    · rintro ⟨plain, value⟩
      exact ⟨head?_of_isDigits plain rfl, value ▸ .bare plain⟩
    · rintro ⟨hyphen, denotes⟩
      generalize same : (count.toNat : Int) = value at denotes
      cases denotes with
      | bare plain => exact ⟨plain, by omega⟩
      | plus plain => exact absurd rfl plus
      | minus plain => exact absurd rfl hyphen

end Text

structure Countable (text : List Char) (value : Int) : Prop where
  integer : numberToken text = .integer
  positive : text.head? ≠ some '-'
  denotes : Text.Denotes text value
  small : value ≤ 4294967295

theorem Countable.exists_count {text : List Char} {value : Int} (countable : Countable text value) :
    ∃ count : UInt32, (count.toNat : Int) = value := by
  obtain ⟨-, positive, denotes, small⟩ := countable
  have some : 0 ≤ value := by
    cases denotes with
    | bare => exact Int.natCast_nonneg _
    | plus => exact Int.natCast_nonneg _
    | minus => exact absurd rfl positive
  refine ⟨.ofNat value.toNat, ?_⟩
  rw [UInt32.toNat_ofNat_of_lt' (show value.toNat < 2 ^ 32 by omega)]
  omega

theorem countable_iff {text : List Char} {count : UInt32} :
    Countable text count.toNat ↔
      numberToken text = .integer ∧ Text.cardinality? text = some count := by
  have small := count.toNat_lt
  rw [Text.cardinality?_eq_some_iff]
  exact ⟨fun ⟨integer, positive, denotes, _⟩ => ⟨integer, positive, denotes⟩,
    fun ⟨integer, positive, denotes⟩ => ⟨integer, positive, denotes, by omega⟩⟩

def numberRefusal (text : List Char) : Cause :=
  if numberToken text = .integer then .noCardinality (.ofList text) else .noInteger (.ofList text)

/-- What becomes of a number at a position: it is accepted with its value, or refused. -/
structure Judges (text : List Char) (position : Position) (verdict : Except SyntaxError UInt32) :
    Prop where
  accepted : ∀ value, (∃ count, verdict = .ok count ∧ (count.toNat : Int) = value) ↔
    Countable text value
  refused : (∀ value, ¬ Countable text value) →
    verdict = .error (.found position (numberRefusal text))

theorem Judges.of_countable {text : List Char} {count : UInt32}
    (countable : Countable text count.toNat) (position : Position) :
    Judges text position (.ok count) where
  accepted value := by
    constructor
    · rintro ⟨_, ⟨⟩, rfl⟩
      exact countable
    · intro other
      exact ⟨count, rfl, countable.denotes.unique other.denotes⟩
  refused none := absurd countable (none _)

theorem Judges.of_none {text : List Char} (none : ∀ count : UInt32, ¬ Countable text count.toNat)
    (position : Position) : Judges text position (.error (.found position (numberRefusal text))) where
  accepted value := by
    constructor
    · rintro ⟨_, ⟨⟩, _⟩
    · intro countable
      obtain ⟨count, rfl⟩ := countable.exists_count
      exact absurd countable (none count)
  refused _ := rfl

section

variable {σ : Type} [Store σ] {session : Session σ} {text : List Char}
  {input first following : List Lexeme}

theorem cardinality_judges (checks : Checks)
    (number : Takes ⟨numberToken text, .ofList text⟩ session.stream.ahead following) :
    ∃ verdict, Judges text session.stream.token.1.position verdict ∧
      Grammar.cardinality.run (Session.reader checks) session =
        (verdict, { session with stream := session.stream.token.2 }) := by
  have lexeme : session.stream.token.1.lexeme = ⟨numberToken text, .ofList text⟩ := by
    rw [Stream.token_lexeme, number.first]
  have scan : Reads checks Reading.token session _ _ := Reads.token_iff.mpr ⟨rfl, rfl⟩
  unfold Grammar.cardinality
  rw [scan.bind_run, Scanned.token, Scanned.literal, lexeme]
  dsimp only
  split
  · next integer =>
    rw [String.toList_ofList]
    cases counted : Text.cardinality? text with
    | some count => exact ⟨_, .of_countable (countable_iff.mpr ⟨integer, counted⟩) _, rfl⟩
    | none =>
      refine ⟨_, .of_none (fun count countable => ?_) _, by rw [numberRefusal, if_pos integer]; rfl⟩
      simp [(countable_iff.mp countable).2] at counted
  · next other =>
    refine ⟨_, .of_none (fun count countable => ?_) _, by rw [numberRefusal, if_neg other]; rfl⟩
    exact other countable.integer

theorem Reads.expectAll_of_opens (checks : Checks) {keyword : Keyword}
    (opens : Opens keyword input first) (here : session.At input) :
    ∃ opened : Session σ,
      Reads checks (Reading.expectAll [.keyword keyword, .openParen]) session () opened ∧
      opened.stream.ahead = first ∧ opened.store = session.store := by
  obtain ⟨middle, ⟨word, keywordTakes⟩, ⟨paren, parenTakes⟩⟩ := opens
  obtain ⟨named, wordRead, namedAhead, namedStore⟩ :=
    Reads.expect_of_takes checks keywordTakes here
  obtain ⟨opened, parenRead, openedAhead, openedStore⟩ :=
    Reads.expect_of_takes checks parenTakes (wordRead.atAhead here namedAhead)
  exact ⟨opened, Reads.expectBoth_iff.mpr ⟨named, wordRead, parenRead⟩, openedAhead,
    openedStore.trans namedStore⟩

/-- The number of a construct is judged before anything else inside of its parentheses is read. -/
theorem enclosed_judges (checks : Checks) {keyword : Keyword} (here : session.At input)
    (opens : Opens keyword input first)
    (number : Takes ⟨numberToken text, .ofList text⟩ first following) :
    ∃ position verdict, ∃ counted : Session σ, Judges text position verdict ∧
      counted.stream.ahead = following ∧ counted.store = session.store ∧
      ∀ {α : Type} (next : UInt32 → Reading α),
        (∀ count, verdict = .ok count → ∀ value after,
          Reads checks (Grammar.enclosed keyword (Grammar.cardinality >>= next)) session value
              after ↔
            ∃ inner, Reads checks (next count) counted value inner ∧
              Reads checks (Reading.expect .closeParen) inner () after) ∧
        ∀ error, verdict = .error error →
          (Grammar.enclosed keyword (Grammar.cardinality >>= next)).run (Session.reader checks)
            session = (.error error, counted) := by
  obtain ⟨opened, opening, ahead, store⟩ := Reads.expectAll_of_opens checks opens here
  rw [← ahead] at number
  obtain ⟨verdict, judges, run⟩ := cardinality_judges checks number
  refine ⟨_, verdict, ⟨opened.stream.token.2, opened.store⟩, judges, ?_, store,
    fun next => ⟨?_, ?_⟩⟩
  · rw [Stream.token_ahead, number]
    rfl
  · rintro count rfl value after
    unfold Grammar.enclosed
    rw [Reads.bind_after opening, Reads.closed_iff]
    simp only [Reads.bind_after run]
  · rintro error rfl
    unfold Grammar.enclosed
    rw [opening.bind_run, Program.run_bind, Program.run_bind, run]

end

/-! ## Restrictions by their numbers -/

/-- A property, perhaps a filler, and a closing parenthesis are read. -/
def ReadsOperands {σ π φ : Type} [Store σ] (checks : Checks) (ofProperty : Reading π)
    (ofFiller : Reading φ) (session : Session σ) (property : π) (filler : Option φ)
    (after : Session σ) : Prop :=
  ∃ related filled, Reads checks ofProperty session property related ∧
    Reads checks (Grammar.optionalOperand ofFiller) related filler filled ∧
    Reads checks (Reading.expect .closeParen) filled () after

theorem readsOperands_iff {σ π φ : Type} [Store σ] {checks : Checks} {ofProperty : Reading π}
    {ofFiller : Reading φ} {next : π → Option φ → Reading ClassExpression}
    (make : π → Option φ → ClassExpression)
    (made : ∀ property filler, next property filler = pure (make property filler))
    {session after : Session σ} {expression : ClassExpression} :
    (∃ inner, Reads checks (do
        let property ← ofProperty
        let filler ← Grammar.optionalOperand ofFiller
        next property filler) session expression inner ∧
      Reads checks (Reading.expect .closeParen) inner () after) ↔
      ∃ property filler, ReadsOperands checks ofProperty ofFiller session property filler after ∧
        expression = make property filler := by
  simp only [made]
  constructor
  · rintro ⟨inner, operands, close⟩
    obtain ⟨property, related, relates, operands⟩ := Reads.bind_iff.mp operands
    obtain ⟨filler, filled, fills, operands⟩ := Reads.bind_iff.mp operands
    obtain ⟨rfl, rfl⟩ := Reads.pure_iff.mp operands
    exact ⟨property, filler, ⟨related, filled, relates, fills, close⟩, rfl⟩
  · rintro ⟨property, filler, ⟨related, filled, relates, fills, close⟩, rfl⟩
    exact ⟨filled, Reads.bind_iff.mpr ⟨property, related, relates,
      Reads.bind_iff.mpr ⟨filler, filled, fills, rfl⟩⟩, close⟩

inductive Restriction where
  | object (bound : Bound)
  | data (bound : Bound)

namespace Restriction

def keyword : Restriction → Keyword
  | object bound => .objectCardinality bound
  | data bound => .dataCardinality bound

def ofObject (bound : Bound) (count : UInt32) (property : ObjectPropertyExpression) :
    Option ClassExpression → ClassExpression
  | none => .objectCardinality bound count property
  | some filler => .objectQualified bound count property filler

def ofData (bound : Bound) (count : UInt32) (property : DataPropertyExpression) :
    Option DataRange → ClassExpression
  | none => .dataCardinality bound count property
  | some range => .dataQualified bound count property range

variable {σ : Type} [Store σ]

def Finishes (checks : Checks) (scope : Scope) (limit : Nat) (counted : Session σ)
    (count : UInt32) (expression : ClassExpression) (after : Session σ) : Restriction → Prop
  | object bound => ∃ property filler,
    ReadsOperands checks (Grammar.objectProperty scope) (Grammar.classExpressionWithin scope limit)
      counted property filler after ∧
    expression = ofObject bound count property filler
  | data bound => ∃ property filler,
    ReadsOperands checks (Grammar.dataProperty scope)
      ((Grammar.dataRange scope).within (.namedOperand "D" (.dataCardinality bound)))
      counted property filler after ∧
    expression = ofData bound count property filler

/-- A restriction is read as the verdict on its number says: with that number, or not at all. -/
structure Follows (restriction : Restriction) (checks : Checks) (scope : Scope) (limit : Nat)
    (session counted : Session σ) (verdict : Except SyntaxError UInt32) : Prop where
  accepted : ∀ count, verdict = .ok count → ∀ expression after,
    Reads checks (Grammar.classExpressionWithin scope (limit + 1)) session expression after ↔
      restriction.Finishes checks scope limit counted count expression after
  refused : ∀ error, verdict = .error error →
    (Grammar.classExpressionWithin scope (limit + 1)).run (Session.reader checks) session =
      (.error error, counted)

theorem follows {restriction : Restriction} {checks : Checks} {scope : Scope} {limit : Nat}
    {session : Session σ} {text : List Char} {input first following : List Lexeme}
    (here : session.At input) (opens : Opens restriction.keyword input first)
    (number : Takes ⟨numberToken text, .ofList text⟩ first following) :
    ∃ position verdict, ∃ counted : Session σ, Judges text position verdict ∧
      counted.stream.ahead = following ∧ counted.store = session.store ∧
      restriction.Follows checks scope limit session counted verdict := by
  obtain ⟨next, peeked, look, seen, there⟩ : ∃ next peeked,
    Reads checks Reading.peek session next peeked ∧ _ := Reads.peek_total here
  have kind : next.token = .keyword restriction.keyword := Acceptance.opens_token opens seen
  have kept : peeked.store = session.store := by
    obtain ⟨-, rfl⟩ := Reads.peek_iff.mp look
    rfl
  -- The keyword was only looked at, so the whole construct is still to be read.
  obtain ⟨position, verdict, counted, judges, ahead, store, read⟩ :=
    enclosed_judges checks there opens number
  refine ⟨position, verdict, counted, judges, ahead, store.trans kept, ?_⟩
  cases restriction with
  | object bound =>
    refine ⟨fun count counts expression after => ?_, fun error fails => ?_⟩ <;>
      unfold Grammar.classExpressionWithin
    · rw [Reads.bind_after look, kind]
      exact ((read _).1 count counts expression after).trans
        (readsOperands_iff (ofObject bound count) fun _ filler => by cases filler <;> rfl)
    · rw [look.bind_run, kind]
      exact (read _).2 error fails
  | data bound =>
    refine ⟨fun count counts expression after => ?_, fun error fails => ?_⟩ <;>
      unfold Grammar.classExpressionWithin
    · rw [Reads.bind_after look, kind]
      exact ((read _).1 count counts expression after).trans
        (readsOperands_iff (ofData bound count) fun _ filler => by cases filler <;> rfl)
    · rw [look.bind_run, kind]
      exact (read _).2 error fails

end Restriction

/-- A text that starts with a sign or a digit is scanned as one number: this character and the
longest run of digits and dots after it. Its token is told by the text alone. Where a restriction
needs a number, it is accepted with its value if it is an integer without a hyphen, of 32 bits, and
else it is refused. The restriction is read with the accepted number, and is refused with any
other. -/
theorem number_scanned_and_counted (σ : Type) [Store σ] {first : Char}
    (starts : startsNumber first = true) (rest : List Char) :
    let text := first :: rest.takeWhile continuesNumber
    let following := lexemesOf (rest.dropWhile continuesNumber)
    (∀ stream : Stream, stream.ahead = lexemesOf (first :: rest) →
      stream.scan.1.lexeme = ⟨numberToken text, .ofList text⟩ ∧
      stream.scan.2.ahead = following) ∧
    ((numberToken text = .integer ↔ Text.Whole64 text) ∧
      (numberToken text = .decimal ↔ ¬ Text.Whole64 text ∧ Text.Pointed text) ∧
      (numberToken text = .illegal ↔ ¬ Text.Whole64 text ∧ ¬ Text.Pointed text)) ∧
    (∀ (checks : Checks) (session : Session σ),
      significant session.stream.ahead = lexemesOf (first :: rest) →
      ∃ verdict stream, Judges text session.stream.token.1.position verdict ∧
        stream.ahead = following ∧
        Grammar.cardinality.run (Session.reader checks) session =
          (verdict, ⟨stream, session.store⟩)) ∧
    ∀ (restriction : Restriction) (checks : Checks) (scope : Scope) (limit : Nat)
      (session : Session σ) (whole : List Char) (inner : List Lexeme),
      session.stream.ahead = lexemesOf whole →
      Opens restriction.keyword (lexemesOf whole) inner →
      significant inner = lexemesOf (first :: rest) →
      ∃ position verdict, ∃ counted : Session σ, Judges text position verdict ∧
        counted.stream.ahead = following ∧ counted.store = session.store ∧
        restriction.Follows checks scope limit session counted verdict := by
  intro text following
  have lexemes : lexemesOf (first :: rest) = ⟨numberToken text, .ofList text⟩ :: following := by
    rw [lexemesOf_cons, cut_number starts]
    rfl
  rw [lexemes]
  refine ⟨fun stream ahead => ?_, numberToken_iff starts List.all_takeWhile,
    fun checks session number => ?_,
    fun restriction checks scope limit session whole inner ahead opens number =>
      Restriction.follows (Session.atLexemes ahead) opens number⟩
  · rw [Stream.scan_lexeme, Stream.scan_ahead, Stream.next, ahead]
    exact ⟨rfl, rfl⟩
  · obtain ⟨verdict, judges, run⟩ := cardinality_judges checks number
    exact ⟨verdict, session.stream.token.2, judges, by rw [Stream.token_ahead, number]; rfl, run⟩

theorem number_scanned_and_counted_last :
    let session (text : String) : Session Catalogue :=
      ⟨.ofInput "" (.ofString text), .empty .implicit⟩
    let greatest := session "# as many as can be\n+0004294967295 <a:p>)"
    let negative := session "DataMinCardinality( -0 <a:p>)"
    startsNumber '+' = true ∧ startsNumber '-' = true ∧
      (∃ stream, Reads .strict Grammar.cardinality greatest 4294967295 ⟨stream, greatest.store⟩ ∧
        stream.ahead = lexemesOf " <a:p>)".toList) ∧
      ∃ position after, (Grammar.classExpressionWithin ⟨.empty, 9⟩ 9).run (Session.reader .strict)
        negative = (.error (.found position (.noCardinality "-0")), after) := by
  intro session greatest negative
  have plus : startsNumber '+' = true := rfl
  have hyphen : startsNumber '-' = true := rfl
  refine ⟨plus, hyphen, ?_, ?_⟩
  · obtain ⟨-, -, counted, -⟩ := number_scanned_and_counted Catalogue plus
      "0004294967295 <a:p>)".toList
    have there : significant greatest.stream.ahead = lexemesOf "+0004294967295 <a:p>)".toList :=
      (congrArg (fun text => significant (lexemesOf text)) (Input.chars_ofString _)).trans
        (by decide)
    obtain ⟨verdict, stream, judges, ahead, run⟩ := counted .strict greatest there
    have countable : Countable "+0004294967295".toList 4294967295 :=
      ⟨by decide, by decide, Text.wholeValue?_eq_some_iff.mp (by decide), by decide⟩
    obtain ⟨count, rfl, value⟩ := (judges.accepted 4294967295).mpr countable
    obtain rfl : count = 4294967295 := UInt32.toNat_inj.mp (Int.ofNat.inj value)
    exact ⟨stream, run, ahead⟩
  · obtain ⟨-, -, -, restricted⟩ := number_scanned_and_counted Catalogue hyphen
      "0 <a:p>)".toList
    obtain ⟨position, verdict, counted, judges, -, -, follows⟩ := restricted (.data .min) .strict
      ⟨.empty, 9⟩ 8 negative "DataMinCardinality( -0 <a:p>)".toList
      (lexemesOf " -0 <a:p>)".toList) (congrArg lexemesOf (Input.chars_ofString _))
      ⟨_, ⟨"DataMinCardinality", rfl⟩, ⟨"(", rfl⟩⟩ rfl
    have refused := judges.refused fun value countable => countable.positive rfl
    exact ⟨position, counted, follows.refused _ refused⟩

end OwlFunctional
