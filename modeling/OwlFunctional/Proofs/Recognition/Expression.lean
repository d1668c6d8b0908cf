import OwlFunctional.Proofs.Recognition.Literal

/-! What the readings of expressions give is spelled by what they read. -/

set_option autoImplicit false

namespace OwlFunctional

theorem Facet.ofIri?_iri {name : Iri} {facet : Facet} (found : ofIri? name = some facet) :
    facet.iri = name := by
  simpa using List.find?_some found

namespace Recognition

open Spelling Grammar

variable {α : Type} {checks : Checks} {session after : Session Catalogue} {input : List Lexeme}

/-! ## Properties and datatypes -/

theorem objectPropertyWithin_spelled {scope : Scope} {limit : Nat}
    {property : ObjectPropertyExpression}
    (read : Reads checks (objectPropertyWithin scope limit) session property after)
    (here : session.At input) :
    ObjectProperty scope.prefixes property input after.stream.ahead ∧
      ∀ declaration ∈ property.references, after.store.Holds declaration := by
  induction limit generalizing session after input property with
  | zero => simp [objectPropertyWithin, Reading.limitReached, Reads.bind_iff] at read
  | succ limit ih =>
    obtain ⟨next, peeked, look, read⟩ := Reads.bind_iff.mp read
    obtain ⟨-, there⟩ := look.peek_at here
    split at read
    · obtain ⟨first, opened, inner, opens, openedAt, inside, grown, closes⟩ :=
        enclosed_parts read there
      obtain ⟨operand, between, core, inside⟩ := Reads.bind_iff.mp inside
      obtain ⟨spelled, held⟩ := ih core openedAt
      split at inside
      · obtain ⟨rfl, rfl⟩ := Reads.pure_iff.mp inside
        cases spelled with
        | named name =>
          exact ⟨.inverseOf opens name (closes (core.atItself openedAt)), grown.holds held⟩
      · simp [Reads.bind_iff] at inside
    · obtain ⟨iri, spelled, ⟨rfl, rfl⟩ | ⟨rfl, rfl⟩ | ⟨rfl, held⟩⟩ := named_cases read there
      · exact ⟨.top spelled, by simp [ObjectPropertyExpression.references]⟩
      · exact ⟨.bottom spelled, by simp [ObjectPropertyExpression.references]⟩
      · exact ⟨.named spelled, by simpa [ObjectPropertyExpression.references] using held⟩

theorem dataProperty_spelled {scope : Scope} {property : DataPropertyExpression}
    (read : Reads checks (dataProperty scope) session property after) (here : session.At input) :
    DataProperty scope.prefixes property input after.stream.ahead ∧
      ∀ declaration ∈ property.references, after.store.Holds declaration := by
  obtain ⟨iri, spelled, ⟨rfl, rfl⟩ | ⟨rfl, rfl⟩ | ⟨rfl, held⟩⟩ := named_cases read here
  · exact ⟨.top spelled, by simp [DataPropertyExpression.references]⟩
  · exact ⟨.bottom spelled, by simp [DataPropertyExpression.references]⟩
  · exact ⟨.named spelled, by simpa [DataPropertyExpression.references] using held⟩

theorem datatype_spelled {scope : Scope} {iri : Iri}
    (read : Reads checks (datatype scope) session iri after) (here : session.At input) :
    Name scope.prefixes.resolve? iri input after.stream.ahead ∧
      (Vocabulary.isBuiltinDatatype iri = false → after.store.Holds ⟨.datatype, iri⟩) := by
  obtain ⟨⟨found, position⟩, between, named, read⟩ := Reads.bind_iff.mp read
  have spelled := name_spelled named here
  dsimp only at read
  split at read
  · next builtin =>
    obtain ⟨rfl, rfl⟩ := Reads.pure_iff.mp read
    exact ⟨spelled, by simp [builtin]⟩
  · obtain ⟨entity, ended, lookup, read⟩ := Reads.bind_iff.mp read
    obtain ⟨rfl, rfl⟩ := Reads.pure_iff.mp read
    obtain ⟨store, known, rfl⟩ := Reads.find_iff.mp lookup
    exact ⟨spelled, fun _ => ⟨.inl rfl, (Catalogue.find_some known).2⟩⟩

theorem facet_spelled {scope : Scope} {facet : Facet}
    (read : Reads checks (Grammar.facet scope) session facet after) (here : session.At input) :
    Name scope.prefixes.resolve? facet.iri input after.stream.ahead := by
  obtain ⟨next, peeked, look, read⟩ := Reads.bind_iff.mp read
  obtain ⟨-, there⟩ := look.peek_at here
  split at read
  · obtain ⟨⟨iri, position⟩, between, named, read⟩ := Reads.bind_iff.mp read
    have spelled := name_spelled named there
    dsimp only at read
    split at read
    · next found =>
      obtain ⟨rfl, rfl⟩ := Reads.pure_iff.mp read
      rw [Facet.ofIri?_iri found]
      exact spelled
    · simp at read
  · simp at read

/-! ## Sequences -/

/-- What a reading gives is spelled by what it reads, trivia after it aside, and what it refers to
is listed afterwards. -/
def Recognizes (checks : Checks) (reading : Reading α)
    (Spells : α → List Lexeme → List Lexeme → Prop) (references : α → List Declaration) : Prop :=
  ∀ ⦃session after : Session Catalogue⦄ ⦃value : α⦄ ⦃input : List Lexeme⦄,
    Reads checks reading session value after → session.At input →
    (∃ rest, Spells value input rest ∧ after.At rest) ∧
      ∀ declaration ∈ references value, after.store.Holds declaration

theorem Recognizes.ofExact {reading : Reading α} {Spells : α → List Lexeme → List Lexeme → Prop}
    {references : α → List Declaration}
    (exact : ∀ {session after : Session Catalogue} {value : α} {input : List Lexeme},
      Reads checks reading session value after → session.At input →
      Spells value input after.stream.ahead ∧
        ∀ declaration ∈ references value, after.store.Holds declaration) :
    Recognizes checks reading Spells references := fun _ _ _ _ read here =>
  ⟨⟨_, (exact read here).1, read.atItself here⟩, (exact read here).2⟩

theorem literal_recognized (scope : Scope) :
    Recognizes checks (Grammar.literal scope) (Spelling.Literal scope.prefixes) fun _ => [] :=
  fun _ _ _ _ read here => ⟨literal_spelled read here, by simp⟩

theorem untilClose_after {item : Reading α} {Spells : α → List Lexeme → List Lexeme → Prop}
    {references : α → List Declaration} (sound : Recognizes checks item Spells references)
    {limit : Nat} {before values : List α}
    (read : Reads checks (Reading.untilClose item before limit) session values after)
    (here : session.At input) :
    ∃ others rest, values = before.reverse ++ others ∧ Sequence Spells others input rest ∧
      after.At rest ∧ ∀ declaration ∈ others.flatMap references, after.store.Holds declaration := by
  induction limit generalizing session before input with
  | zero => simp [Reading.untilClose, Reading.limitReached, Reads.bind_iff] at read
  | succ limit ih =>
    obtain ⟨next, peeked, look, read⟩ := Reads.bind_iff.mp read
    obtain ⟨-, there⟩ := look.peek_at here
    split at read
    · obtain ⟨rfl, rfl⟩ := Reads.pure_iff.mp read
      exact ⟨[], input, by simp, .nil, there, by simp⟩
    · simp [Reads.bind_iff] at read
    · obtain ⟨value, between, first, read⟩ := Reads.bind_iff.mp read
      obtain ⟨⟨middle, spelled, betweenAt⟩, held⟩ := sound first there
      obtain ⟨others, rest, rfl, sequence, afterAt, othersHeld⟩ := ih read betweenAt
      refine ⟨value :: others, rest, by simp, .cons spelled sequence, afterAt, ?_⟩
      intro declaration member
      rcases List.mem_append.mp (List.flatMap_cons ▸ member) with member | member
      · exact read.grows.holds held declaration member
      · exact othersHeld declaration member

theorem untilClose_recognized {item : Reading α} {Spells : α → List Lexeme → List Lexeme → Prop}
    {references : α → List Declaration} (sound : Recognizes checks item Spells references)
    (limit : Nat) :
    Recognizes checks (Reading.untilClose item [] limit) (Sequence Spells)
      (·.flatMap references) := by
  intro session after values input read here
  obtain ⟨others, rest, rfl, sequence, afterAt, held⟩ := untilClose_after sound read here
  exact ⟨⟨rest, sequence, afterAt⟩, held⟩

theorem operands_spelled {keyword : Keyword} {item : Reading α}
    {Spells : α → List Lexeme → List Lexeme → Prop} {references : α → List Declaration}
    (sound : Recognizes checks item Spells references) {limit : Nat} {operands : List α}
    (read : Reads checks (enclosed keyword (Reading.untilClose item [] limit)) session operands after)
    (here : session.At input) :
    (∃ first second, Opens keyword input first ∧ Sequence Spells operands first second ∧
      Closes second after.stream.ahead) ∧
      ∀ declaration ∈ operands.flatMap references, after.store.Holds declaration := by
  obtain ⟨first, opened, inner, opens, openedAt, inside, grown, closes⟩ := enclosed_parts read here
  obtain ⟨⟨second, sequence, innerAt⟩, held⟩ := untilClose_recognized sound limit inside openedAt
  exact ⟨⟨first, second, opens, sequence, closes innerAt⟩, grown.holds held⟩

theorem checkCount_iff {keyword : Keyword} {least : Nat} {position : Position}
    {given operands : List α} :
    Reads checks (checkCount keyword least position given) session operands after ↔
      given = operands ∧ session = after ∧ least ≤ operands.length := by
  unfold checkCount
  split
  · next few =>
    constructor
    · simp
    · rintro ⟨rfl, -, enough⟩
      omega
  · next enough =>
    rw [Reads.pure_iff]
    constructor
    · rintro ⟨rfl, rfl⟩
      exact ⟨rfl, rfl, by omega⟩
    · rintro ⟨rfl, rfl, -⟩
      exact ⟨rfl, rfl⟩

theorem onlyOperand_iff {keyword : Keyword} {position : Position} {given : List α} {operand : α} :
    Reads checks (onlyOperand keyword position given) session operand after ↔
      given = [operand] ∧ session = after := by
  unfold onlyOperand
  split
  · simp
  · next several =>
    constructor
    · simp
    · rintro ⟨rfl, -⟩
      exact absurd rfl (several operand)

theorem sequence_single {Spells : α → List Lexeme → List Lexeme → Prop} {value : α}
    {rest : List Lexeme} (sequence : Sequence Spells [value] input rest) :
    Spells value input rest := by
  cases sequence with
  | cons spelled others =>
    cases others
    exact spelled

section

variable {β : Type} {item : Reading α} {Spells : α → List Lexeme → List Lexeme → Prop}
  {references : α → List Declaration} {keyword : Keyword} {limit : Nat} {position : Position}
  {value : β}

/-- Operands in parentheses, of which there are enough. -/
theorem counted_spelled (sound : Recognizes checks item Spells references) {least : Nat}
    {make : List α → β}
    (read : Reads checks (do
      let operands ← enclosed keyword (Reading.untilClose item [] limit)
      make <$> checkCount keyword least position operands) session value after)
    (here : session.At input) :
    ∃ operands first second, make operands = value ∧ Opens keyword input first ∧
      Sequence Spells operands first second ∧ least ≤ operands.length ∧
      Closes second after.stream.ahead ∧
      ∀ declaration ∈ operands.flatMap references, after.store.Holds declaration := by
  obtain ⟨operands, between, core, read⟩ := Reads.bind_iff.mp read
  obtain ⟨⟨first, second, opens, sequence, closes⟩, held⟩ := operands_spelled sound core here
  obtain ⟨counted, count, rfl⟩ := Reads.map_iff.mp read
  obtain ⟨rfl, rfl, enough⟩ := checkCount_iff.mp count
  exact ⟨operands, first, second, rfl, opens, sequence, enough, closes, held⟩

/-- Parentheses around one operand. -/
theorem only_spelled (sound : Recognizes checks item Spells references) {make : α → β}
    (read : Reads checks (do
      let operands ← enclosed keyword (Reading.untilClose item [] limit)
      make <$> onlyOperand keyword position operands) session value after)
    (here : session.At input) :
    ∃ operand first second, make operand = value ∧ Opens keyword input first ∧
      Spells operand first second ∧ Closes second after.stream.ahead ∧
      ∀ declaration ∈ references operand, after.store.Holds declaration := by
  obtain ⟨operands, between, core, read⟩ := Reads.bind_iff.mp read
  obtain ⟨⟨first, second, opens, sequence, closes⟩, held⟩ := operands_spelled sound core here
  obtain ⟨operand, only, rfl⟩ := Reads.map_iff.mp read
  obtain ⟨rfl, rfl⟩ := onlyOperand_iff.mp only
  exact ⟨operand, first, second, rfl, opens, sequence_single sequence, closes, by simpa using held⟩

end

/-! ## Data ranges -/

theorem facets_spelled {scope : Scope} {limit : Nat} {before pairs : List FacetRestriction}
    (read : Reads checks (facets scope before limit) session pairs after) (here : session.At input) :
    ∃ others rest, pairs = before.reverse ++ others ∧
      Sequence (FacetPair scope.prefixes) others input rest ∧ after.At rest := by
  induction limit generalizing session before input with
  | zero => simp [facets, Reading.limitReached, Reads.bind_iff] at read
  | succ limit ih =>
    obtain ⟨next, peeked, look, read⟩ := Reads.bind_iff.mp read
    obtain ⟨-, there⟩ := look.peek_at here
    dsimp only at read
    split at read
    · obtain ⟨rfl, rfl⟩ := Reads.pure_iff.mp read
      exact ⟨[], input, by simp, .nil, there⟩
    · obtain ⟨pair, between, first, read⟩ := Reads.bind_iff.mp read
      obtain ⟨name, named, facet, first⟩ := Reads.bind_iff.mp (Reads.within_iff.mp first)
      obtain ⟨value, valued, literal, first⟩ := Reads.bind_iff.mp first
      obtain ⟨rfl, rfl⟩ := Reads.pure_iff.mp first
      obtain ⟨middle, spelled, valuedAt⟩ := literal_spelled literal (facet.atItself there)
      obtain ⟨others, rest, rfl, sequence, afterAt⟩ := ih read valuedAt
      exact ⟨⟨name, value⟩ :: others, rest, by simp,
        .cons ⟨_, facet_spelled facet there, spelled⟩ sequence, afterAt⟩

theorem namedRange_spelled {scope : Scope} {range : DataRange}
    (read : Reads checks (namedRange scope) session range after) (here : session.At input) :
    Spelling.DataRange scope.prefixes range input after.stream.ahead ∧
      ∀ declaration ∈ range.references, after.store.Holds declaration := by
  obtain ⟨iri, between, name, read⟩ := Reads.bind_iff.mp read
  obtain ⟨rfl, rfl⟩ := Reads.pure_iff.mp read
  obtain ⟨spelled, held⟩ := datatype_spelled (Reads.within_iff.mp name) here
  split
  · next builtin => exact ⟨.builtin builtin spelled, by simp [DataRange.references]⟩
  · next foreign =>
    have foreign := Bool.eq_false_iff.mpr foreign
    exact ⟨.named foreign spelled, by simpa [DataRange.references] using held foreign⟩

theorem restriction_spelled {scope : Scope} {position : Position} {range : DataRange}
    (read : Reads checks (do
      let (iri, restrictions) ← enclosed .datatypeRestriction do
        let iri ← (datatype scope).within .namedDatatype
        pure (iri, ← facets scope [] scope.limit)
      let restrictions ← checkCount .datatypeRestriction 1 position restrictions
      pure (.restriction iri restrictions)) session range after)
    (here : session.At input) :
    Spelling.DataRange scope.prefixes range input after.stream.ahead ∧
      ∀ declaration ∈ range.references, after.store.Holds declaration := by
  obtain ⟨⟨iri, pairs⟩, between, restricted, read⟩ := Reads.bind_iff.mp read
  obtain ⟨first, opened, inner, opens, openedAt, inside, grown, closes⟩ :=
    enclosed_parts restricted here
  obtain ⟨base, based, name, inside⟩ := Reads.bind_iff.mp inside
  obtain ⟨found, faceted, facets, inside⟩ := Reads.bind_iff.mp inside
  obtain ⟨same, rfl⟩ := Reads.pure_iff.mp inside
  obtain ⟨rfl, rfl⟩ := Prod.mk.inj same
  obtain ⟨counted, _, count, read⟩ := Reads.bind_iff.mp read
  obtain ⟨rfl, rfl, enough⟩ := checkCount_iff.mp count
  obtain ⟨rfl, rfl⟩ := Reads.pure_iff.mp read
  have name := Reads.within_iff.mp name
  obtain ⟨spelled, held⟩ := datatype_spelled name openedAt
  obtain ⟨others, rest, rfl, sequence, facetedAt⟩ := facets_spelled facets (name.atItself openedAt)
  refine ⟨.restriction opens spelled sequence enough (closes facetedAt), ?_⟩
  simp only [DataRange.references]
  split
  · simp
  · next foreign =>
    have listed := held (Bool.eq_false_iff.mpr foreign)
    exact grown.holds (facets.grows.holds (by simpa using listed))

theorem dataRangeWithin_spelled {scope : Scope} {limit : Nat} {range : DataRange}
    (read : Reads checks (dataRangeWithin scope limit) session range after)
    (here : session.At input) :
    Spelling.DataRange scope.prefixes range input after.stream.ahead ∧
      ∀ declaration ∈ range.references, after.store.Holds declaration := by
  induction limit generalizing session after input range with
  | zero => simp [dataRangeWithin, Reading.limitReached, Reads.bind_iff] at read
  | succ limit ih =>
    have inner : Recognizes checks (dataRangeWithin scope limit)
        (Spelling.DataRange scope.prefixes) DataRange.references := .ofExact ih
    obtain ⟨next, peeked, look, read⟩ := Reads.bind_iff.mp read
    obtain ⟨-, there⟩ := look.peek_at here
    split at read
    · exact namedRange_spelled read there
    · exact namedRange_spelled read there
    · exact namedRange_spelled read there
    · exact restriction_spelled read there
    · obtain ⟨_, _, _, rfl, opens, sequence, enough, closes, held⟩ :=
        counted_spelled inner read there
      refine ⟨.junction opens sequence enough closes, ?_⟩
      rwa [DataRange.references, DataRange.referencesOfAll_eq]
    · obtain ⟨_, _, _, rfl, opens, operand, closes, held⟩ := only_spelled inner read there
      exact ⟨.complementOf opens operand closes, held⟩
    · obtain ⟨_, _, _, rfl, opens, sequence, enough, closes, -⟩ :=
        counted_spelled (literal_recognized scope) read there
      exact ⟨.oneOf opens sequence enough closes, by simp [DataRange.references]⟩
    · simp at read

/-! ## Class expressions -/

theorem cardinality_spelled {count : UInt32} (read : Reads checks cardinality session count after)
    (here : session.At input) : Cardinality count input after.stream.ahead := by
  obtain ⟨next, between, scan, read⟩ := Reads.bind_iff.mp read
  split at read
  · next kind =>
    split at read
    · next value =>
      obtain ⟨rfl, rfl⟩ := Reads.pure_iff.mp read
      exact ⟨_, scan.takes_token here kind (by simp), value⟩
    · simp at read
  · simp at read

/-- An operand was left out, or it was read from where the session stands. -/
theorem optionalOperand_cases {operand : Reading α} {given : Option α}
    (read : Reads checks (optionalOperand operand) session given after) (here : session.At input) :
    given = none ∧ after.At input ∨
      ∃ value, given = some value ∧ ∃ between : Session Catalogue, between.At input ∧
        Reads checks operand between value after := by
  obtain ⟨next, peeked, look, read⟩ := Reads.bind_iff.mp read
  obtain ⟨-, there⟩ := look.peek_at here
  split at read
  · obtain ⟨rfl, rfl⟩ := Reads.pure_iff.mp read
    exact .inl ⟨rfl, there⟩
  · obtain ⟨value, core, rfl⟩ := Reads.map_iff.mp read
    exact .inr ⟨value, rfl, peeked, there, core⟩

theorem namedClass_spelled {scope : Scope} {expression : ClassExpression}
    (read : Reads checks (namedClass scope) session expression after) (here : session.At input) :
    Class scope.prefixes expression input after.stream.ahead ∧
      ∀ declaration ∈ expression.references, after.store.Holds declaration := by
  obtain ⟨iri, spelled, ⟨rfl, rfl⟩ | ⟨rfl, rfl⟩ | ⟨rfl, held⟩⟩ := named_cases read here
  · exact ⟨.thing spelled, by simp [ClassExpression.references]⟩
  · exact ⟨.nothing spelled, by simp [ClassExpression.references]⟩
  · exact ⟨.named spelled, by simpa [ClassExpression.references] using held⟩

/-- What two parts of a construct refer to is listed when both have been read. -/
theorem holds_append {first second third : Catalogue} {references others : List Declaration}
    (held : ∀ declaration ∈ references, first.Holds declaration)
    (othersHeld : ∀ declaration ∈ others, second.Holds declaration)
    (before : first.Grows second) (afterwards : second.Grows third) :
    ∀ declaration ∈ references ++ others, third.Holds declaration := by
  intro declaration member
  rcases List.mem_append.mp member with member | member
  · exact (before.trans afterwards).holds held declaration member
  · exact afterwards.holds othersHeld declaration member

theorem Recognizes.within {α : Type} {reading : Reading α}
    {Spells : α → List Lexeme → List Lexeme → Prop} {references : α → List Declaration}
    (sound : Recognizes checks reading Spells references) (context : Context) :
    Recognizes checks (reading.within context) Spells references :=
  fun _ _ _ _ read here => sound (Reads.within_iff.mp read) here

theorem objectProperty_recognized (scope : Scope) :
    Recognizes checks (objectProperty scope) (ObjectProperty scope.prefixes)
      ObjectPropertyExpression.references := .ofExact objectPropertyWithin_spelled

theorem dataProperty_recognized (scope : Scope) :
    Recognizes checks (dataProperty scope) (DataProperty scope.prefixes)
      DataPropertyExpression.references := .ofExact dataProperty_spelled

theorem dataRange_recognized (scope : Scope) :
    Recognizes checks (dataRange scope) (Spelling.DataRange scope.prefixes)
      DataRange.references := .ofExact dataRangeWithin_spelled

theorem individual_recognized (scope : Scope) :
    Recognizes checks (Grammar.individual scope) (Spelling.Individual scope.prefixes)
      Individual.references := .ofExact individual_spelled

section

variable {α β γ δ : Type} {first : Reading α} {second : Reading β} {third : Reading γ}
  {FirstSpells : α → List Lexeme → List Lexeme → Prop}
  {SecondSpells : β → List Lexeme → List Lexeme → Prop}
  {ThirdSpells : γ → List Lexeme → List Lexeme → Prop}
  {firstReferences : α → List Declaration} {secondReferences : β → List Declaration}
  {thirdReferences : γ → List Declaration}

theorem pair_spelled (sound : Recognizes checks first FirstSpells firstReferences)
    (soundNext : Recognizes checks second SecondSpells secondReferences)
    {make : α → β → δ} {value : δ}
    (read : Reads checks (do pure (make (← first) (← second))) session value after)
    (here : session.At input) :
    ∃ one two middle rest, make one two = value ∧ FirstSpells one input middle ∧
      SecondSpells two middle rest ∧ after.At rest ∧
      ∀ declaration ∈ firstReferences one ++ secondReferences two,
        after.store.Holds declaration := by
  obtain ⟨one, between, readFirst, read⟩ := Reads.bind_iff.mp read
  obtain ⟨two, ended, readSecond, read⟩ := Reads.bind_iff.mp read
  obtain ⟨rfl, rfl⟩ := Reads.pure_iff.mp read
  obtain ⟨⟨middle, spelled, there⟩, held⟩ := sound readFirst here
  obtain ⟨⟨rest, spelledNext, afterAt⟩, heldNext⟩ := soundNext readSecond there
  exact ⟨one, two, middle, rest, rfl, spelled, spelledNext, afterAt,
    holds_append held heldNext readSecond.grows (.refl _)⟩

theorem triple_spelled (sound : Recognizes checks first FirstSpells firstReferences)
    (soundNext : Recognizes checks second SecondSpells secondReferences)
    (soundLast : Recognizes checks third ThirdSpells thirdReferences)
    {make : α → β → γ → δ} {value : δ}
    (read : Reads checks (do pure (make (← first) (← second) (← third))) session value after)
    (here : session.At input) :
    ∃ one two three middle more rest, make one two three = value ∧ FirstSpells one input middle ∧
      SecondSpells two middle more ∧ ThirdSpells three more rest ∧ after.At rest ∧
      ∀ declaration ∈ firstReferences one ++ (secondReferences two ++ thirdReferences three),
        after.store.Holds declaration := by
  obtain ⟨one, between, readFirst, read⟩ := Reads.bind_iff.mp read
  obtain ⟨⟨middle, spelled, there⟩, held⟩ := sound readFirst here
  obtain ⟨two, three, more, rest, made, spelledNext, spelledLast, afterAt, heldNext⟩ :=
    pair_spelled soundNext soundLast read there
  exact ⟨one, two, three, middle, more, rest, made, spelled, spelledNext, spelledLast, afterAt,
    holds_append held heldNext read.grows (.refl _)⟩

/-- How many values a property has, and what they are if that is not left out. -/
theorem bounded_parts (sound : Recognizes checks first FirstSpells firstReferences)
    (soundNext : Recognizes checks second SecondSpells secondReferences)
    {next : UInt32 → α → Option β → Reading δ} {value : δ}
    (read : Reads checks (do
      let count ← cardinality
      let property ← first
      let operand ← optionalOperand second
      next count property operand) session value after)
    (here : session.At input) :
    ∃ count one given start middle, ∃ ended : Session Catalogue,
      Cardinality count input start ∧ FirstSpells one start middle ∧
      Reads checks (next count one given) ended value after ∧
      (given = none ∧ ended.At middle ∧
          (∀ declaration ∈ firstReferences one, ended.store.Holds declaration) ∨
        ∃ two rest, given = some two ∧ SecondSpells two middle rest ∧ ended.At rest ∧
          ∀ declaration ∈ firstReferences one ++ secondReferences two,
            ended.store.Holds declaration) := by
  obtain ⟨count, counted, number, read⟩ := Reads.bind_iff.mp read
  obtain ⟨one, between, readFirst, read⟩ := Reads.bind_iff.mp read
  obtain ⟨given, ended, optional, read⟩ := Reads.bind_iff.mp read
  obtain ⟨⟨middle, spelled, there⟩, held⟩ := sound readFirst (number.atItself here)
  refine ⟨count, one, given, _, middle, ended, cardinality_spelled number here, spelled, read, ?_⟩
  rcases optionalOperand_cases optional there with
    ⟨rfl, endedAt⟩ | ⟨two, rfl, looked, lookedAt, readSecond⟩
  · exact .inl ⟨rfl, endedAt, optional.grows.holds held⟩
  · obtain ⟨⟨rest, spelledNext, endedAt⟩, heldNext⟩ := soundNext readSecond lookedAt
    exact .inr ⟨two, rest, rfl, spelledNext, endedAt,
      holds_append held heldNext optional.grows (.refl _)⟩

end

section

variable {α β δ : Type} {first : Reading α} {second : Reading β}
  {FirstSpells : α → List Lexeme → List Lexeme → Prop}
  {SecondSpells : β → List Lexeme → List Lexeme → Prop}
  {Spells : δ → List Lexeme → List Lexeme → Prop} {firstReferences : α → List Declaration}
  {secondReferences : β → List Declaration} {references : δ → List Declaration}
  {keyword : Keyword} {value : δ}

theorem enclosedOne_spelled (sound : Recognizes checks first FirstSpells firstReferences)
    {make : α → δ}
    (read : Reads checks (enclosed keyword do pure (make (← first))) session value after)
    (here : session.At input)
    (spells : ∀ {one input start ended rest}, Opens keyword input start →
      FirstSpells one start ended → Closes ended rest → Spells (make one) input rest)
    (refers : ∀ one, references (make one) ⊆ firstReferences one) :
    Spells value input after.stream.ahead ∧
      ∀ declaration ∈ references value, after.store.Holds declaration := by
  obtain ⟨_, _, _, opens, openedAt, inside, grown, closes⟩ := enclosed_parts read here
  obtain ⟨one, between, core, inside⟩ := Reads.bind_iff.mp inside
  obtain ⟨rfl, rfl⟩ := Reads.pure_iff.mp inside
  obtain ⟨⟨ended, spelled, innerAt⟩, held⟩ := sound core openedAt
  exact ⟨spells opens spelled (closes innerAt),
    grown.holds fun declaration member => held declaration (refers one member)⟩

theorem enclosedPair_spelled (sound : Recognizes checks first FirstSpells firstReferences)
    (soundNext : Recognizes checks second SecondSpells secondReferences) {make : α → β → δ}
    (read : Reads checks (enclosed keyword do pure (make (← first) (← second))) session value after)
    (here : session.At input)
    (spells : ∀ {one two input start middle ended rest}, Opens keyword input start →
      FirstSpells one start middle → SecondSpells two middle ended → Closes ended rest →
      Spells (make one two) input rest)
    (refers : ∀ one two, references (make one two) ⊆ firstReferences one ++ secondReferences two) :
    Spells value input after.stream.ahead ∧
      ∀ declaration ∈ references value, after.store.Holds declaration := by
  obtain ⟨_, _, _, opens, openedAt, inside, grown, closes⟩ := enclosed_parts read here
  obtain ⟨one, two, middle, ended, rfl, spelled, spelledNext, innerAt, held⟩ :=
    pair_spelled sound soundNext inside openedAt
  exact ⟨spells opens spelled spelledNext (closes innerAt),
    grown.holds fun declaration member => held declaration (refers one two member)⟩

/-- A restriction of the number of values, with or without what the values are. -/
theorem enclosedBounded_spelled (sound : Recognizes checks first FirstSpells firstReferences)
    (soundNext : Recognizes checks second SecondSpells secondReferences)
    {bare : UInt32 → α → δ} {full : UInt32 → α → β → δ}
    {next : UInt32 → α → Option β → Reading δ}
    (read : Reads checks (enclosed keyword do
      let count ← cardinality
      let property ← first
      let operand ← optionalOperand second
      next count property operand) session value after)
    (here : session.At input) (left : ∀ count one, next count one none = pure (bare count one))
    (given : ∀ count one two, next count one (some two) = pure (full count one two))
    (spellsBare : ∀ {count one input start middle ended rest}, Opens keyword input start →
      Cardinality count start middle → FirstSpells one middle ended → Closes ended rest →
      Spells (bare count one) input rest)
    (spellsFull : ∀ {count one two input start middle more ended rest}, Opens keyword input start →
      Cardinality count start middle → FirstSpells one middle more → SecondSpells two more ended →
      Closes ended rest → Spells (full count one two) input rest)
    (refersBare : ∀ count one, references (bare count one) ⊆ firstReferences one)
    (refersFull : ∀ count one two,
      references (full count one two) ⊆ firstReferences one ++ secondReferences two) :
    Spells value input after.stream.ahead ∧
      ∀ declaration ∈ references value, after.store.Holds declaration := by
  obtain ⟨_, _, _, opens, openedAt, inside, grown, closes⟩ := enclosed_parts read here
  obtain ⟨count, one, _, _, _, _, number, spelled, made,
    ⟨rfl, innerAt, held⟩ | ⟨two, _, rfl, spelledNext, innerAt, held⟩⟩ :=
    bounded_parts sound soundNext inside openedAt
  · rw [left] at made
    obtain ⟨rfl, rfl⟩ := Reads.pure_iff.mp made
    exact ⟨spellsBare opens number spelled (closes innerAt),
      grown.holds fun declaration member => held declaration (refersBare count one member)⟩
  · rw [given] at made
    obtain ⟨rfl, rfl⟩ := Reads.pure_iff.mp made
    exact ⟨spellsFull opens number spelled spelledNext (closes innerAt),
      grown.holds fun declaration member => held declaration (refersFull count one two member)⟩

end

theorem classExpressionWithin_spelled {scope : Scope} {limit : Nat} {expression : ClassExpression}
    (read : Reads checks (classExpressionWithin scope limit) session expression after)
    (here : session.At input) :
    Class scope.prefixes expression input after.stream.ahead ∧
      ∀ declaration ∈ expression.references, after.store.Holds declaration := by
  induction limit generalizing session after input expression with
  | zero => simp [classExpressionWithin, Reading.limitReached, Reads.bind_iff] at read
  | succ limit ih =>
    have operand : Recognizes checks (classExpressionWithin scope limit) (Class scope.prefixes)
        ClassExpression.references := .ofExact ih
    have property : Recognizes checks _ _ _ := objectProperty_recognized scope
    have dataProperty : Recognizes checks _ _ _ := dataProperty_recognized scope
    have individual : Recognizes checks _ _ _ := individual_recognized scope
    have range : Recognizes checks _ _ _ := dataRange_recognized scope
    obtain ⟨next, peeked, look, read⟩ := Reads.bind_iff.mp read
    obtain ⟨-, there⟩ := look.peek_at here
    -- Names come first: an IRI in brackets, a word or a colon. Then each keyword has its case.
    split at read
    · exact namedClass_spelled read there
    · exact namedClass_spelled read there
    · exact namedClass_spelled read there
    · obtain ⟨_, _, _, rfl, opens, sequence, enough, closes, held⟩ :=
        counted_spelled operand read there
      refine ⟨.junction opens sequence enough closes, ?_⟩
      rwa [ClassExpression.references, ClassExpression.referencesOfAll_eq]
    · obtain ⟨_, _, _, rfl, opens, inner, closes, held⟩ := only_spelled operand read there
      exact ⟨.complementOf opens inner closes, held⟩
    · obtain ⟨_, _, _, rfl, opens, sequence, enough, closes, held⟩ :=
        counted_spelled individual read there
      exact ⟨.oneOf opens sequence enough closes, held⟩
    · exact enclosedPair_spelled property operand read there .objectQuantified
        fun _ _ => List.Subset.refl _
    · exact enclosedPair_spelled property individual read there .objectHasValue
        fun _ _ => List.Subset.refl _
    · exact enclosedOne_spelled property read there .objectHasSelf fun _ => List.Subset.refl _
    · exact enclosedBounded_spelled property operand read there (fun _ _ => rfl) (fun _ _ _ => rfl)
        .objectCardinality .objectQualified (fun _ _ => List.Subset.refl _)
        fun _ _ _ => List.Subset.refl _
    · exact enclosedPair_spelled dataProperty range read there .dataQuantified
        fun _ _ => List.Subset.refl _
    · exact enclosedPair_spelled (dataProperty.within _) ((literal_recognized scope).within _) read
        there .dataHasValue fun _ _ => by simp [ClassExpression.references]
    · exact enclosedBounded_spelled dataProperty (range.within _) read there (fun _ _ => rfl)
        (fun _ _ _ => rfl) .dataCardinality .dataQualified (fun _ _ => List.Subset.refl _)
        fun _ _ _ => List.Subset.refl _
    · simp at read

end Recognition

end OwlFunctional
