import OwlFunctional.Proofs.Locality
import OwlFunctional.Proofs.Recognition.Name

/-! Every spelling of a name is read, if what it refers to can be found.

Written identifiers and language tags are not checked here.
-/

set_option autoImplicit false

namespace OwlFunctional

variable {α : Type}

/-- The reading gives a value and leaves the cursor right before the rest. -/
def ReadsUpTo (reading : Reading α) (session : Session Catalogue) (value : α)
    (rest : List Lexeme) : Prop :=
  ∃ after, Reads .lenient reading session value after ∧ after.stream.ahead = rest

/-- The reading gives a value and leaves the cursor before the rest, trivia aside. -/
def ReadsTo (reading : Reading α) (session : Session Catalogue) (value : α)
    (rest : List Lexeme) : Prop :=
  ∃ after, Reads .lenient reading session value after ∧ after.At rest

section

variable {β : Type} {session : Session Catalogue} {input middle rest : List Lexeme} {value : α}
  {reading : Reading β} {first : β} {next : β → Reading α}

theorem ReadsUpTo.readsTo (read : ReadsUpTo reading session first rest) (here : session.At input) :
    ReadsTo reading session first rest := by
  obtain ⟨after, read, ahead⟩ := read
  exact ⟨after, read, read.atAhead here ahead⟩

theorem ReadsTo.pure (here : session.At rest) : ReadsTo (Pure.pure value) session value rest :=
  ⟨session, Reads.pure_iff.mpr ⟨rfl, rfl⟩, here⟩

theorem ReadsTo.within {context : Context} (read : ReadsTo reading session first rest) :
    ReadsTo (reading.within context) session first rest := by
  obtain ⟨after, read, there⟩ := read
  exact ⟨after, Reads.within_iff.mpr read, there⟩

theorem ReadsTo.bind (read : ReadsTo reading session first middle)
    (others : ∀ between : Session Catalogue, between.At middle →
      session.store.Grows between.store → ReadsTo (next first) between value rest) :
    ReadsTo (reading >>= next) session value rest := by
  obtain ⟨between, read, there⟩ := read
  obtain ⟨after, others, afterAt⟩ := others between there read.grows
  exact ⟨after, Reads.bind_iff.mpr ⟨first, between, read, others⟩, afterAt⟩

theorem ReadsUpTo.finish (read : ReadsUpTo reading session first rest)
    (others : ∀ after : Session Catalogue, Reads .lenient (next first) after value after) :
    ReadsUpTo (reading >>= next) session value rest := by
  obtain ⟨after, read, ahead⟩ := read
  exact ⟨after, Reads.bind_iff.mpr ⟨first, after, read, others after⟩, ahead⟩

end

namespace Acceptance

open Spelling Grammar

variable {session : Session Catalogue} {input rest : List Lexeme}

theorem readsUpTo_token {lexeme : Lexeme} (takes : Takes lexeme input rest)
    (here : session.At input) :
    ∃ scanned after, Reads .lenient Reading.token session scanned after ∧
      scanned.lexeme = lexeme ∧ after.stream.ahead = rest := Reads.token_of_takes takes here

theorem reads_peek (here : session.At input) :
    ∃ next peeked, Reads .lenient Reading.peek session next peeked ∧
      next.lexeme = firstLexeme input ∧ peeked.At input := Reads.peek_total here

theorem readsUpTo_peek {value : α} {next : Scanned → Reading α} (here : session.At input)
    (others : ∀ (scanned : Scanned) (peeked : Session Catalogue),
      scanned.lexeme = firstLexeme input → peeked.At input →
      session.store.Grows peeked.store → ReadsUpTo (next scanned) peeked value rest) :
    ReadsUpTo (Reading.peek >>= next) session value rest := by
  obtain ⟨scanned, peeked, look, seen, there⟩ := reads_peek here
  obtain ⟨after, read, ahead⟩ := others scanned peeked seen there look.grows
  exact ⟨after, Reads.bind_iff.mpr ⟨scanned, peeked, look, read⟩, ahead⟩

theorem readsUpTo_expect {token : Token} (mark : Mark token input rest) (here : session.At input) :
    ReadsUpTo (Reading.expect token) session () rest := by
  obtain ⟨literal, takes⟩ := mark
  obtain ⟨after, read, ahead, -⟩ := Reads.expect_of_takes .lenient takes here
  exact ⟨after, read, ahead⟩

theorem exists_enclosed {keyword : Keyword} {inside : Reading α} {P : α → Prop}
    {first second : List Lexeme} (opens : Opens keyword input first) (here : session.At input)
    (core : ∀ opened : Session Catalogue, opened.At first → session.store.Grows opened.store →
      ∃ value, P value ∧ ReadsTo inside opened value second)
    (closes : Closes second rest) :
    ∃ value, P value ∧ ReadsUpTo (enclosed keyword inside) session value rest := by
  obtain ⟨middle, word, paren⟩ := opens
  obtain ⟨named, keywordRead, ahead⟩ := readsUpTo_expect word here
  have namedAt := keywordRead.atAhead here ahead
  obtain ⟨opened, parenRead, ahead⟩ := readsUpTo_expect paren namedAt
  obtain ⟨value, holds, inner, insideRead, innerAt⟩ :=
    core opened (parenRead.atAhead namedAt ahead) (keywordRead.grows.trans parenRead.grows)
  obtain ⟨after, closeRead, ahead⟩ := readsUpTo_expect closes innerAt
  exact ⟨value, holds, after, Reads.enclosed_iff.mpr
    ⟨named, opened, inner, keywordRead, parenRead, insideRead, closeRead⟩, ahead⟩

theorem readsUpTo_enclosed_bind {β : Type} {keyword : Keyword} {inside : Reading α} {P : α → Prop}
    {next : α → Reading β} {value : β} {first second : List Lexeme}
    (opens : Opens keyword input first) (here : session.At input)
    (core : ∀ opened : Session Catalogue, opened.At first → session.store.Grows opened.store →
      ∃ value, P value ∧ ReadsTo inside opened value second)
    (closes : Closes second rest)
    (others : ∀ (found : α) (after : Session Catalogue), P found →
      Reads .lenient (next found) after value after) :
    ReadsUpTo (enclosed keyword inside >>= next) session value rest := by
  obtain ⟨found, holds, read⟩ := exists_enclosed opens here core closes
  exact read.finish fun after => others found after holds

theorem readsUpTo_enclosed {keyword : Keyword} {inside : Reading α} {value : α}
    {first second : List Lexeme} (opens : Opens keyword input first) (here : session.At input)
    (core : ∀ opened : Session Catalogue, opened.At first → session.store.Grows opened.store →
      ReadsTo inside opened value second)
    (closes : Closes second rest) : ReadsUpTo (enclosed keyword inside) session value rest := by
  obtain ⟨_, rfl, read⟩ := exists_enclosed opens here
    (fun opened there grown => ⟨value, rfl, core opened there grown⟩) closes
  exact read

theorem readsUpTo_localName {label name : String} {token : Token} (isWord : token.isWord = true)
    (takes : Takes ⟨token, name⟩ input rest) (here : session.At input) :
    ReadsUpTo (localName label) session (label, name) rest := by
  obtain ⟨scanned, after, scan, same, ahead⟩ := readsUpTo_token takes here
  refine ⟨after, Reads.bind_iff.mpr ⟨scanned, after, scan, ?_⟩, ahead⟩
  have kind : scanned.token = token := by rw [Scanned.token, same]
  have literal : scanned.literal = name := by rw [Scanned.literal, same]
  simp [kind, literal, isWord]

theorem readsUpTo_shortName {label name : String} (short : ShortName label name input rest)
    (here : session.At input) : ReadsUpTo shortName session (label, name) rest := by
  cases short with
  | labelled takes mark isWord named =>
    obtain ⟨scanned, begun, scan, same, ahead⟩ := readsUpTo_token takes here
    have begunAt := scan.atAhead here ahead
    obtain ⟨colon, colonRead, ahead⟩ := readsUpTo_expect mark begunAt
    obtain ⟨after, rest, ahead⟩ :=
      readsUpTo_localName isWord named (colonRead.atAhead begunAt ahead)
    refine ⟨after, Reads.bind_iff.mpr ⟨scanned, begun, scan, ?_⟩, ahead⟩
    have kind : scanned.token = .word := by rw [Scanned.token, same]
    have literal : scanned.literal = label := by rw [Scanned.literal, same]
    simp only [kind, literal]
    exact Reads.bind_iff.mpr ⟨(), colon, colonRead, rest⟩
  | plain mark isWord named =>
    obtain ⟨literal, takes⟩ := mark
    obtain ⟨scanned, begun, scan, same, ahead⟩ := readsUpTo_token takes here
    obtain ⟨after, rest, ahead⟩ := readsUpTo_localName isWord named (scan.atAhead here ahead)
    refine ⟨after, Reads.bind_iff.mpr ⟨scanned, begun, scan, ?_⟩, ahead⟩
    have kind : scanned.token = .colon := by rw [Scanned.token, same]
    simp only [kind]
    exact rest

theorem shortName_first {label name : String} (short : ShortName label name input rest) :
    (firstLexeme input = ⟨.word, label⟩ ∨ (firstLexeme input).token = .colon ∧ label = "") := by
  cases short with
  | labelled takes => exact .inl takes.first
  | plain mark =>
    obtain ⟨literal, takes⟩ := mark
    exact .inr ⟨by rw [takes.first], rfl⟩

theorem readsUpTo_name {scope : Scope} {iri : Iri}
    (spelled : Name scope.prefixes.resolve? iri input rest) (here : session.At input) :
    ∃ position, ReadsUpTo (name scope) session (iri, position) rest := by
  obtain ⟨next, peeked, look, seen, there⟩ := reads_peek here
  refine ⟨next.position, ?_⟩
  cases spelled with
  | bracketed takes =>
    obtain ⟨scanned, after, scan, same, ahead⟩ := readsUpTo_token takes there
    rw [takes.first] at seen
    refine ⟨after, Reads.bind_iff.mpr ⟨next, peeked, look, ?_⟩, ahead⟩
    have kind : next.token = .iri := by rw [Scanned.token, seen]
    have literal : next.literal = iri.render := by rw [Scanned.literal, seen]
    simp only [kind]
    refine Reads.bind_iff.mpr ⟨scanned, after, scan, Reads.bind_iff.mpr ⟨iri, after, ?_, by simp⟩⟩
    exact Recognition.bracketedIri_iff.mpr ⟨literal, rfl, rfl⟩
  | short short known =>
    obtain ⟨after, shortRead, ahead⟩ := readsUpTo_shortName short there
    have kind : next.token = .word ∨ next.token = .colon := by
      rw [Scanned.token, seen]
      rcases shortName_first short with first | ⟨first, -⟩
      · exact .inl (by rw [first])
      · exact .inr first
    refine ⟨after, Reads.bind_iff.mpr ⟨next, peeked, look, ?_⟩, ahead⟩
    have resolved : Reads .lenient (resolve scope _ _ next.position) after iri after :=
      Recognition.resolve_iff.mpr ⟨known, rfl⟩
    rcases kind with kind | kind <;> simp only [kind] <;>
      exact Reads.bind_iff.mpr ⟨_, after, shortRead, Reads.bind_iff.mpr ⟨iri, after, resolved, by simp⟩⟩

/-- A look-up succeeds for what can be referred to, and does not move the cursor. -/
theorem reads_find {kind : EntityKind} {iri : Iri} {unknown : SyntaxError}
    (known : session.store.Knows ⟨kind, iri⟩) :
    ∃ after, Reads .lenient (Reading.find kind iri unknown) session ⟨iri⟩ after ∧
      after.stream = session.stream := by
  obtain ⟨store, found⟩ := Catalogue.find_of_knows known
  exact ⟨_, Reads.find_iff.mpr ⟨store, found, rfl⟩, rfl⟩

theorem reads_declared {kind : EntityKind} {term : OwlTerm} {iri : Iri} {position : Position}
    (resolves : session.store.Resolves ⟨kind, iri⟩) (document : kind ≠ .datatype) :
    ∃ after, Reads .lenient (declared kind term iri position) session ⟨iri⟩ after ∧
      after.stream = session.stream := by
  have foreign : Vocabulary.owlName? iri = none := resolves.1.resolve_left document
  unfold declared
  rw [foreign]
  exact reads_find resolves.2

section

variable {β : Type} {scope : Scope} {kind : EntityKind} {term : OwlTerm} {upper lower : Iri}
  {top bottom : β} {make : Entity kind → β}

theorem readsUpTo_upper (spelled : Name scope.prefixes.resolve? upper input rest)
    (here : session.At input) :
    ReadsUpTo (do
      let (iri, position) ← name scope
      if iri = upper then pure top
      else if iri = lower then pure bottom
      else make <$> declared kind term iri position) session top rest := by
  obtain ⟨position, after, named, ahead⟩ := readsUpTo_name spelled here
  exact ⟨after, Reads.bind_iff.mpr ⟨_, after, named, by simp⟩, ahead⟩

theorem readsUpTo_lower (spelled : Name scope.prefixes.resolve? lower input rest)
    (different : lower ≠ upper) (here : session.At input) :
    ReadsUpTo (do
      let (iri, position) ← name scope
      if iri = upper then pure top
      else if iri = lower then pure bottom
      else make <$> declared kind term iri position) session bottom rest := by
  obtain ⟨position, after, named, ahead⟩ := readsUpTo_name spelled here
  exact ⟨after, Reads.bind_iff.mpr ⟨_, after, named, by simp [different]⟩, ahead⟩

/-- The names that need no declaration are names of the language itself, and no others are taken
for them. -/
theorem readsUpTo_named {iri : Iri} (spelled : Name scope.prefixes.resolve? iri input rest)
    (here : session.At input) (resolves : session.store.Resolves ⟨kind, iri⟩)
    (document : kind ≠ .datatype) (high : Vocabulary.owlName? upper ≠ none)
    (low : Vocabulary.owlName? lower ≠ none) :
    ReadsUpTo (do
      let (iri, position) ← name scope
      if iri = upper then pure top
      else if iri = lower then pure bottom
      else make <$> declared kind term iri position) session (make ⟨iri⟩) rest := by
  obtain ⟨position, between, named, ahead⟩ := readsUpTo_name spelled here
  have foreign : Vocabulary.owlName? iri = none := resolves.1.resolve_left document
  have notUpper : iri ≠ upper := by
    rintro rfl
    exact high foreign
  have notLower : iri ≠ lower := by
    rintro rfl
    exact low foreign
  obtain ⟨after, found, same⟩ :=
    reads_declared ((named.grows.resolves_iff _).mpr resolves) document
  refine ⟨after, Reads.bind_iff.mpr ⟨_, between, named, ?_⟩, by rw [same, ahead]⟩
  simp only [if_neg notUpper, if_neg notLower]
  exact Reads.map_iff.mpr ⟨_, found, rfl⟩

end

theorem reads_startsAnonymous (here : session.At input) :
    ∃ after, Reads .lenient startsAnonymous session
        (decide (firstLexeme input = ⟨.word, anonymousMark⟩)) after ∧ after.At input := by
  obtain ⟨next, peeked, look, seen, there⟩ := reads_peek here
  refine ⟨peeked, Reads.bind_iff.mpr ⟨next, peeked, look, Reads.pure_iff.mpr ⟨?_, rfl⟩⟩, there⟩
  rw [← seen, Bool.eq_iff_iff, Bool.and_eq_true, decide_eq_true_iff, decide_eq_true_iff,
    decide_eq_true_iff]
  rcases next with ⟨⟨token, literal⟩, position⟩
  simp [Scanned.token, Scanned.literal]

theorem readsUpTo_anonymous {label : BlankLabel}
    (short : ShortName anonymousMark label.text input rest) (here : session.At input) :
    ReadsUpTo anonymous session label rest := by
  obtain ⟨after, read, ahead⟩ := readsUpTo_shortName short here
  refine ⟨after, Reads.bind_iff.mpr ⟨_, after, read, ?_⟩, ahead⟩
  simp [BlankLabel.ofString?_text]

theorem name_of_globally {prefixes : Prefixes} {iri : Iri}
    (spelled : Name (globally prefixes) iri input rest) :
    Name prefixes.resolve? iri input rest ∧ firstLexeme input ≠ ⟨.word, anonymousMark⟩ := by
  cases spelled with
  | bracketed takes => exact ⟨.bracketed takes, by simp [takes.first]⟩
  | short short known =>
    unfold globally at known
    split at known
    · simp at known
    · next other =>
      refine ⟨.short short known, fun first => ?_⟩
      rcases shortName_first short with same | ⟨colon, -⟩
      · simp [same, other] at first
      · simp [first] at colon

section

variable {α : Type} {make : BlankLabel → α} {named : Reading α}

theorem readsUpTo_marked {label : BlankLabel}
    (short : ShortName anonymousMark label.text input rest) (here : session.At input) :
    ReadsUpTo (anonymousOr make named) session (make label) rest := by
  have first : firstLexeme input = ⟨.word, anonymousMark⟩ := by
    rcases shortName_first short with first | ⟨-, empty⟩
    · exact first
    · simp [anonymousMark] at empty
  obtain ⟨looked, look, there⟩ := reads_startsAnonymous here
  obtain ⟨after, read, ahead⟩ := readsUpTo_anonymous short there
  refine ⟨after, Reads.bind_iff.mpr ⟨_, looked, look, ?_⟩, ahead⟩
  rw [if_pos (by simpa using first)]
  exact Reads.bind_iff.mpr ⟨_, after, read, by simp⟩

theorem readsUpTo_unmarked {value : α} (other : firstLexeme input ≠ ⟨.word, anonymousMark⟩)
    (here : session.At input)
    (read : ∀ looked : Session Catalogue, looked.At input → session.store.Grows looked.store →
      ReadsUpTo named looked value rest) :
    ReadsUpTo (anonymousOr make named) session value rest := by
  obtain ⟨looked, look, there⟩ := reads_startsAnonymous here
  obtain ⟨after, read, ahead⟩ := read looked there look.grows
  refine ⟨after, Reads.bind_iff.mpr ⟨_, looked, look, ?_⟩, ahead⟩
  rwa [if_neg (by simpa using other)]

end

theorem readsUpTo_individual {scope : Scope} {individual : Individual}
    (spelled : Spelling.Individual scope.prefixes individual input rest) (here : session.At input)
    (resolve : ∀ declaration ∈ individual.references, session.store.Resolves declaration) :
    ReadsUpTo (Grammar.individual scope) session individual rest := by
  cases spelled with
  | named name =>
    obtain ⟨spelled, other⟩ := name_of_globally name
    refine readsUpTo_unmarked other here fun looked there grown => ?_
    obtain ⟨position, between, named, ahead⟩ := readsUpTo_name spelled there
    obtain ⟨after, found, same⟩ := reads_declared
      (((grown.trans named.grows).resolves_iff _).mpr (resolve _ (List.mem_singleton_self _)))
      (by simp)
    exact ⟨after, Reads.bind_iff.mpr ⟨_, between, Reads.within_iff.mpr named,
      Reads.bind_iff.mpr ⟨_, after, found, by simp⟩⟩, by rw [same, ahead]⟩
  | anonymous short => exact readsUpTo_marked short here

end Acceptance

end OwlFunctional
