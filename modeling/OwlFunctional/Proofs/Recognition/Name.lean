import OwlFunctional.Proofs.Parts
import OwlFunctional.Proofs.References
import OwlFunctional.Proofs.Spelling

/-! What the readings of names give is spelled by what they read.

They leave the cursor right after what they read, and list what is referred to.
-/

set_option autoImplicit false

namespace OwlFunctional

/-- Only one text in brackets has the given inside. -/
theorem Iri.render_of_unbracket? {written text : String} (inside : unbracket? written = some text) :
    (⟨text⟩ : Iri).render = written := by
  unfold unbracket? at inside
  split at inside
  · next rest same =>
    split at inside
    · next last =>
      obtain rfl := Option.some.inj inside
      apply String.toList_injective
      have whole : rest.dropLast ++ ['>'] = rest := by
        have nonempty : rest ≠ [] := by rintro rfl; simp at last
        rw [List.getLast?_eq_some_getLast nonempty] at last
        have parts := List.dropLast_concat_getLast nonempty
        rwa [Option.some.inj last] at parts
      simp [render, same, whole]
    · simp at inside
  · simp at inside

namespace Recognition

open Spelling Grammar

section

variable {σ : Type} [Store σ] {checks : Checks} {session after : Session σ}

theorem bracketedIri_iff {scanned : Scanned} {iri : Iri} :
    Reads checks (bracketedIri scanned) session iri after ↔
      scanned.literal = iri.render ∧ checks.iri iri.text = none ∧ session = after := by
  unfold bracketedIri
  split
  · next outside =>
    constructor
    · simp
    · rintro ⟨same, -⟩
      simp [same, Iri.unbracket?_render] at outside
  · next text inside =>
    have written := Iri.render_of_unbracket? inside
    rw [Reads.bind_iff]
    constructor
    · rintro ⟨_, between, check, read⟩
      obtain ⟨passed, rfl⟩ := Reads.checkIri_iff.mp check
      obtain ⟨rfl, rfl⟩ := Reads.pure_iff.mp read
      exact ⟨written.symm, passed, rfl⟩
    · rintro ⟨same, passed, rfl⟩
      rw [same, Iri.unbracket?_render] at inside
      obtain rfl := Option.some.inj inside
      exact ⟨(), session, Reads.checkIri_iff.mpr ⟨passed, rfl⟩, by simp⟩

theorem resolve_iff {scope : Scope} {label name : String} {position : Position} {iri : Iri} :
    Reads checks (resolve scope label name position) session iri after ↔
      scope.prefixes.resolve? label name = some iri ∧ session = after := by
  unfold resolve
  split
  · next unknown => simp [unknown]
  · next known => simp [known, Reads.bind_iff]

end

variable {α : Type} {checks : Checks} {session after : Session Catalogue} {input : List Lexeme}

theorem expect_mark {token : Token} (read : Reads checks (Reading.expect token) session () after)
    (here : session.At input) (visible : token ≠ .eof) : Mark token input after.stream.ahead := by
  obtain ⟨scanned, scan, rfl⟩ := Reads.expect_iff.mp read
  exact ⟨scanned.literal, scan.takes_of_token here visible⟩

theorem enclosed_parts {keyword : Keyword} {inside : Reading α} {value : α}
    (read : Reads checks (enclosed keyword inside) session value after) (here : session.At input) :
    ∃ first, ∃ opened inner : Session Catalogue, Opens keyword input first ∧ opened.At first ∧
      Reads checks inside opened value inner ∧ inner.store.Grows after.store ∧
      ∀ {second : List Lexeme}, inner.At second → Closes second after.stream.ahead := by
  obtain ⟨named, opened, inner, word, paren, core, close⟩ := Reads.enclosed_iff.mp read
  have atNamed := word.atItself here
  exact ⟨_, opened, inner,
    ⟨_, expect_mark word here (by simp), expect_mark paren atNamed (by simp)⟩,
    paren.atItself atNamed, core, close.grows, fun there => expect_mark close there (by simp)⟩

theorem localName_taken {label given name : String}
    (read : Reads checks (localName given) session (label, name) after) (here : session.At input) :
    given = label ∧ ∃ token, token.isWord = true ∧ Takes ⟨token, name⟩ input after.stream.ahead := by
  obtain ⟨next, between, scan, read⟩ := Reads.bind_iff.mp read
  split at read
  · next isWord =>
    obtain ⟨same, rfl⟩ := Reads.pure_iff.mp read
    obtain ⟨rfl, rfl⟩ := Prod.mk.inj same
    refine ⟨rfl, next.token, isWord, scan.takes_of_token here ?_⟩
    intro eof
    simp [eof, Token.isWord] at isWord
  · simp at read

theorem shortName_spelled {label name : String}
    (read : Reads checks shortName session (label, name) after) (here : session.At input) :
    ShortName label name input after.stream.ahead := by
  obtain ⟨first, begun, scan, read⟩ := Reads.bind_iff.mp read
  have begunAt := scan.atItself here
  dsimp only at read
  split at read
  · next kind =>
    obtain ⟨_, between, mark, read⟩ := Reads.bind_iff.mp read
    obtain ⟨rfl, isWord, named⟩ := localName_taken read (mark.atItself begunAt)
    have takes := scan.takes_token here kind (by simp)
    exact .labelled takes (expect_mark mark begunAt (by simp)) named.1 named.2
  · next kind =>
    obtain ⟨rfl, isWord, named⟩ := localName_taken read begunAt
    have takes := scan.takes_token here kind (by simp)
    exact .plain ⟨_, takes⟩ named.1 named.2
  · obtain ⟨_, _, failed, _⟩ := Reads.bind_iff.mp read
    simp at failed

theorem labelledName_spelled {scope : Scope} {iri : Iri} {given position : Position}
    (read : Reads checks (labelledName scope given) session (iri, position) after)
    (here : session.At input) : Name scope.prefixes.resolve? iri input after.stream.ahead := by
  obtain ⟨⟨label, name⟩, between, short, read⟩ := Reads.bind_iff.mp read
  obtain ⟨found, ended, resolved, read⟩ := Reads.bind_iff.mp read
  obtain ⟨same, rfl⟩ := Reads.pure_iff.mp read
  obtain ⟨rfl, -⟩ := Prod.mk.inj same
  obtain ⟨known, rfl⟩ := resolve_iff.mp resolved
  exact .short (shortName_spelled short here) known

theorem name_spelled {scope : Scope} {iri : Iri} {position : Position}
    (read : Reads checks (name scope) session (iri, position) after) (here : session.At input) :
    Name scope.prefixes.resolve? iri input after.stream.ahead := by
  obtain ⟨next, peeked, look, read⟩ := Reads.bind_iff.mp read
  obtain ⟨seen, there⟩ := look.peek_at here
  split at read
  · next kind =>
    obtain ⟨scanned, between, scan, read⟩ := Reads.bind_iff.mp read
    obtain ⟨found, ended, bracket, read⟩ := Reads.bind_iff.mp read
    obtain ⟨same, rfl⟩ := Reads.pure_iff.mp read
    obtain ⟨rfl, -⟩ := Prod.mk.inj same
    obtain ⟨written, -, rfl⟩ := bracketedIri_iff.mp bracket
    have first : scanned.lexeme = next.lexeme := (scan.token_first there).trans seen.symm
    have bracketed : scanned.token = .iri := by
      rw [Scanned.token, first]
      exact kind
    have takes := scan.takes_token there bracketed (by simp)
    rw [Scanned.literal, first, ← Scanned.literal, written] at takes
    exact .bracketed takes
  · exact labelledName_spelled read there
  · exact labelledName_spelled read there
  · simp at read

/-- The label of anonymous individuals is an abbreviation nowhere else than after it was looked
for. -/
theorem name_globally {prefixes : Prefixes} {iri : Iri} {rest : List Lexeme}
    (spelled : Name prefixes.resolve? iri input rest)
    (other : firstLexeme input ≠ ⟨.word, anonymousMark⟩) :
    Name (globally prefixes) iri input rest := by
  cases spelled with
  | bracketed takes => exact .bracketed takes
  | short short known =>
    refine .short short ?_
    cases short with
    | labelled takes mark isWord named =>
      rw [takes.first] at other
      simpa [globally, show _ ≠ anonymousMark by simpa using other] using known
    | plain mark isWord named => simpa [globally, anonymousMark] using known

theorem startsAnonymous_at {anonymous : Bool}
    (read : Reads checks startsAnonymous session anonymous after) (here : session.At input) :
    (anonymous = true ↔ firstLexeme input = ⟨.word, anonymousMark⟩) ∧ after.At input := by
  obtain ⟨next, peeked, look, read⟩ := Reads.bind_iff.mp read
  obtain ⟨seen, there⟩ := look.peek_at here
  obtain ⟨rfl, rfl⟩ := Reads.pure_iff.mp read
  refine ⟨?_, there⟩
  rw [← seen]
  rw [Bool.and_eq_true, decide_eq_true_iff, decide_eq_true_iff]
  rcases next with ⟨⟨token, literal⟩, position⟩
  simp [Scanned.token, Scanned.literal]

theorem anonymous_spelled {label : BlankLabel} (read : Reads checks anonymous session label after)
    (here : session.At input) (first : firstLexeme input = ⟨.word, anonymousMark⟩) :
    ShortName anonymousMark label.text input after.stream.ahead := by
  obtain ⟨⟨mark, text⟩, between, short, read⟩ := Reads.bind_iff.mp read
  have spelled := shortName_spelled short here
  dsimp only at read
  split at read
  · next found valid =>
    obtain ⟨rfl, rfl⟩ := Reads.pure_iff.mp read
    have same : found.text = text := by
      unfold BlankLabel.ofString? at valid
      split at valid
      · rw [← Option.some.inj valid]
      · simp at valid
    have marked : mark = anonymousMark := by
      cases spelled with
      | labelled takes => simpa [first] using takes.first.symm
      | plain mark => simpa [first] using mark.choose_spec.first
    rw [same, ← marked]
    exact spelled
  · simp [Reads.bind_iff] at read

/-- What can be anonymous has a blank label, or it is read where no such label is marked. -/
theorem marked_cases {β : Type} {make : BlankLabel → β} {named : Reading β} {value : β}
    (read : Reads checks (anonymousOr make named) session value after) (here : session.At input) :
    (∃ label, value = make label ∧ ShortName anonymousMark label.text input after.stream.ahead ∧
      after.At after.stream.ahead) ∨
    ∃ looked, looked.At input ∧ firstLexeme input ≠ ⟨.word, anonymousMark⟩ ∧
      Reads checks named looked value after := by
  obtain ⟨mark, looked, look, read⟩ := Reads.bind_iff.mp read
  obtain ⟨marked, there⟩ := startsAnonymous_at look here
  split at read
  · next isMarked =>
    obtain ⟨label, ended, anonymous, read⟩ := Reads.bind_iff.mp read
    obtain ⟨rfl, rfl⟩ := Reads.pure_iff.mp read
    exact .inl ⟨label, rfl, anonymous_spelled anonymous there (marked.mp isMarked),
      anonymous.atItself there⟩
  · next unmarked =>
    exact .inr ⟨looked, there, fun first => unmarked (marked.mpr first), read⟩

theorem declared_found {kind : EntityKind} {term : OwlTerm} {iri : Iri} {position : Position}
    {entity : Entity kind} (read : Reads checks (declared kind term iri position) session entity after) :
    entity = ⟨iri⟩ ∧ after.stream = session.stream ∧ after.store.Holds ⟨kind, iri⟩ := by
  unfold declared at read
  split at read
  · simp at read
  · next foreign =>
    obtain ⟨store, found, rfl⟩ := Reads.find_iff.mp read
    obtain ⟨same, listed⟩ := Catalogue.find_some found
    exact ⟨same, rfl, .inr foreign, listed⟩

/-- A name is one of two that need no declaration, or that of a declared entity. -/
theorem named_cases {β : Type} {scope : Scope} {kind : EntityKind} {term : OwlTerm}
    {upper lower : Iri} {top bottom value : β} {make : Entity kind → β}
    (read : Reads checks (do
      let (iri, position) ← name scope
      if iri = upper then pure top
      else if iri = lower then pure bottom
      else make <$> declared kind term iri position) session value after)
    (here : session.At input) :
    ∃ iri, Name scope.prefixes.resolve? iri input after.stream.ahead ∧
      (iri = upper ∧ value = top ∨ iri = lower ∧ value = bottom ∨
        value = make ⟨iri⟩ ∧ after.store.Holds ⟨kind, iri⟩) := by
  obtain ⟨⟨iri, position⟩, between, named, read⟩ := Reads.bind_iff.mp read
  have spelled := name_spelled named here
  dsimp only at read
  split at read
  · next same =>
    obtain ⟨rfl, rfl⟩ := Reads.pure_iff.mp read
    exact ⟨iri, spelled, .inl ⟨same, rfl⟩⟩
  · split at read
    · next same =>
      obtain ⟨rfl, rfl⟩ := Reads.pure_iff.mp read
      exact ⟨iri, spelled, .inr (.inl ⟨same, rfl⟩)⟩
    · obtain ⟨entity, lookup, rfl⟩ := Reads.map_iff.mp read
      obtain ⟨rfl, same, held⟩ := declared_found lookup
      exact ⟨iri, same ▸ spelled, .inr (.inr ⟨rfl, held⟩)⟩

theorem individual_spelled {scope : Scope} {individual : Individual}
    (read : Reads checks (Grammar.individual scope) session individual after)
    (here : session.At input) :
    Spelling.Individual scope.prefixes individual input after.stream.ahead ∧
      ∀ declaration ∈ individual.references, after.store.Holds declaration := by
  rcases marked_cases read here with ⟨label, rfl, short, -⟩ | ⟨looked, there, other, read⟩
  · exact ⟨.anonymous short, by simp [Individual.references]⟩
  · obtain ⟨⟨iri, position⟩, between, named, read⟩ := Reads.bind_iff.mp read
    obtain ⟨entity, ended, lookup, read⟩ := Reads.bind_iff.mp read
    obtain ⟨rfl, rfl⟩ := Reads.pure_iff.mp read
    obtain ⟨rfl, same, held⟩ := declared_found lookup
    have spelled := name_spelled (Reads.within_iff.mp named) there
    rw [same]
    exact ⟨.named (name_globally spelled other), by simpa [Individual.references] using held⟩

end Recognition

end OwlFunctional
