import OwlFunctional.Proofs.Acceptance.Literal
import OwlFunctional.Proofs.Recognition.Expression

/-! Every spelling of an expression is read, if what it refers to can be found.

The limit on what is nested or repeated is never met, as each part takes at least one lexeme.
-/

set_option autoImplicit false

namespace OwlFunctional

theorem Vocabulary.owlName?_owl {name : String} (plain : '#' ∉ name.toList) :
    owlName? (owl name) = some name := by
  have space : owlSpace.toList.reverse = '#' :: "http://www.w3.org/2002/07/owl".toList.reverse := by
    decide
  have telling : ∀ c ∈ name.toList.reverse, (c != '#') = true := by
    intro c member
    rw [bne_iff_ne]
    rintro rfl
    exact plain (List.mem_reverse.mp member)
  have whole : (owl name).text.toList.reverse =
      name.toList.reverse ++ '#' :: "http://www.w3.org/2002/07/owl".toList.reverse := by
    simp [owl, space]
  unfold owlName? Iri.split
  dsimp only
  rw [whole, List.takeWhile_append_of_pos telling, List.dropWhile_append_of_pos telling]
  simp [owlSpace]

theorem Vocabulary.owlName?_owl_ne_none {name : String} (plain : '#' ∉ name.toList) :
    owlName? (owl name) ≠ none := by
  simp [owlName?_owl plain]

theorem Facet.ofIri?_of_iri (facet : Facet) : ofIri? facet.iri = some facet := by
  cases facet <;> decide

namespace Acceptance

open Spelling Grammar

variable {α : Type} {session : Session Catalogue} {input rest : List Lexeme}

/-- The tokens that operands start with: names, literals and the keywords of constructs. -/
def startsOperand (token : Token) : Bool := token.isWord || token.startsName || token.startsLiteral

theorem name_starts {resolve : String → String → Option Iri} {iri : Iri}
    (name : Name resolve iri input rest) : (firstLexeme input).token.startsName = true := by
  cases name with
  | bracketed takes => simp [takes.first, Token.startsName]
  | short short =>
    rcases shortName_first short with first | ⟨first, -⟩ <;> simp [first, Token.startsName]

theorem opens_first {keyword : Keyword} (opens : Opens keyword input rest) :
    (firstLexeme input).token = .keyword keyword := by
  obtain ⟨middle, ⟨literal, takes⟩, -⟩ := opens
  rw [takes.first]

theorem opens_token {keyword : Keyword} {next : Scanned} (opens : Opens keyword input rest)
    (seen : next.lexeme = firstLexeme input) : next.token = .keyword keyword := by
  rw [Scanned.token, seen, opens_first opens]

theorem closes_first (closes : Closes input rest) : (firstLexeme input).token = .closeParen := by
  obtain ⟨literal, takes⟩ := closes
  rw [takes.first]

theorem Ended.ofCloses (closes : Closes input rest) : Ended input :=
  ⟨by simp [closes_first closes], by simp [closes_first closes]⟩

/-- No operand starts with a token that follows one or is a part of one. -/
theorem startsOperand_ne {token : Token} (starts : startsOperand token = true) :
    token ≠ .closeParen ∧ token ≠ .eof ∧ token ≠ .atSign ∧ token ≠ .doubleCaret := by
  refine ⟨?_, ?_, ?_, ?_⟩ <;> rintro rfl <;> exact absurd starts (by decide)

theorem Ended.ofOperand (starts : startsOperand (firstLexeme input).token = true) : Ended input := by
  obtain ⟨-, -, untagged, untyped⟩ := startsOperand_ne starts
  exact ⟨untagged, untyped⟩

/-! ## What is read between two places -/

/-- A value is read there if its references can be found, in steps below the limit, and nothing
follows that would go on with it. -/
structure Passes (reading : Reading α) (value : α) (references : List Declaration) (limit : Nat)
    (input rest : List Lexeme) : Prop where
  starts : startsOperand (firstLexeme input).token = true
  smaller : size rest < size input
  reads : ∀ {session : Session Catalogue}, session.At input → size input < limit → Ended rest →
    (∀ declaration ∈ references, session.store.Resolves declaration) →
    ReadsTo reading session value rest

/-- A reading gives every item that is spelled. -/
def Accepts (reading : Reading α) (Spells : α → List Lexeme → List Lexeme → Prop)
    (references : α → List Declaration) (limit : Nat) : Prop :=
  ∀ ⦃value input rest⦄, Spells value input rest →
    Passes reading value (references value) limit input rest

section

variable {β γ δ : Type} {one : Reading α} {two : Reading β} {three : Reading γ} {first : α}
  {second : β} {third : γ} {references others more : List Declaration} {limit : Nat}
  {middle later : List Lexeme}

theorem Passes.within {context : Context} (passes : Passes one first references limit input rest) :
    Passes (one.within context) first references limit input rest where
  starts := passes.starts
  smaller := passes.smaller
  reads here enough ended resolve := (passes.reads here enough ended resolve).within

theorem Passes.unary {make : α → δ} (passes : Passes one first references limit input rest) :
    Passes (do pure (make (← one))) (make first) references limit input rest where
  starts := passes.starts
  smaller := passes.smaller
  reads here enough ended resolve :=
    (passes.reads here enough ended resolve).bind fun _ there _ => .pure there

/-- What is read after the first operand may depend on its value. -/
theorem Passes.bind {next : α → Reading β} (passes : Passes one first references limit input middle)
    (following : Passes (next first) second others limit middle rest) :
    Passes (one >>= next) second (references ++ others) limit input rest where
  starts := passes.starts
  smaller := Nat.lt_trans following.smaller passes.smaller
  reads here enough ended resolve := by
    obtain ⟨known, othersKnown⟩ := List.forall_mem_append.mp resolve
    -- Where a second operand starts, the first one does not go on.
    refine (passes.reads here enough (.ofOperand following.starts) known).bind fun _ there grown => ?_
    exact following.reads there (Nat.lt_trans passes.smaller enough) ended (grown.resolves othersKnown)

theorem Passes.pair {make : α → β → δ} (passes : Passes one first references limit input middle)
    (following : Passes two second others limit middle rest) :
    Passes (do pure (make (← one) (← two))) (make first second) (references ++ others) limit
      input rest := passes.bind following.unary

theorem Passes.triple {make : α → β → γ → δ}
    (passes : Passes one first references limit input middle)
    (following : Passes two second others limit middle later)
    (last : Passes three third more limit later rest) :
    Passes (do pure (make (← one) (← two) (← three))) (make first second third)
      (references ++ (others ++ more)) limit input rest := passes.bind (following.bind last.unary)

/-- Operands in parentheses take fewer steps than the whole construct. -/
theorem Passes.enclosed {keyword : Keyword} {opened closed : List Lexeme}
    (passes : Passes one first references limit opened closed) (opens : Opens keyword input opened)
    (closes : Closes closed rest) (here : session.At input) (enough : size input ≤ limit)
    (resolve : ∀ declaration ∈ references, session.store.Resolves declaration) :
    ReadsUpTo (Grammar.enclosed keyword one) session first rest := by
  refine readsUpTo_enclosed opens here (fun _ openedAt grown => ?_) closes
  have fewer := opens.isLocal.size_lt
  exact passes.reads openedAt (by omega) (.ofCloses closes) (grown.resolves resolve)

end

/-! ## Properties and datatypes -/

theorem notInverse {resolve : String → String → Option Iri} {iri : Iri} {next : Scanned}
    (name : Name resolve iri input rest) (seen : next.lexeme = firstLexeme input) :
    next.token ≠ .keyword .objectInverseOf := by
  intro first
  have starts := name_starts name
  rw [← seen, ← Scanned.token, first] at starts
  simp [Token.startsName] at starts

theorem readsUpTo_objectPropertyWithin {scope : Scope} {limit : Nat}
    {property : ObjectPropertyExpression}
    (spelled : ObjectProperty scope.prefixes property input rest) (here : session.At input)
    (enough : size input < limit)
    (resolve : ∀ declaration ∈ property.references, session.store.Resolves declaration) :
    ReadsUpTo (objectPropertyWithin scope limit) session property rest := by
  induction limit generalizing session input rest property with
  | zero => omega
  | succ limit ih =>
    refine readsUpTo_peek here fun next peeked seen there grown => ?_
    have resolve := grown.resolves resolve
    cases spelled with
    | top name =>
      rw [if_neg (notInverse name seen)]
      exact readsUpTo_upper name there
    | bottom name =>
      rw [if_neg (notInverse name seen)]
      exact readsUpTo_lower name (by decide) there
    | named name =>
      rw [if_neg (notInverse name seen)]
      exact readsUpTo_named name there (resolve _ (List.mem_singleton_self _)) (by simp)
        (Vocabulary.owlName?_owl_ne_none (by decide)) (Vocabulary.owlName?_owl_ne_none (by decide))
    | inverseOf opens name closes =>
      rw [if_pos (opens_token opens seen)]
      refine readsUpTo_enclosed opens there (fun opened openedAt grown => ?_) closes
      have fewer := opens.isLocal.size_lt
      have inner := ih (.named name) openedAt (by omega) (grown.resolves resolve)
      exact (inner.readsTo openedAt).bind fun between betweenAt _ => .pure betweenAt

theorem objectProperty_accepted {scope : Scope} {limit : Nat} (within : limit ≤ scope.limit) :
    Accepts (objectProperty scope) (ObjectProperty scope.prefixes)
      ObjectPropertyExpression.references limit := fun _ _ _ spelled =>
  { starts := by
      cases spelled with
      | top name | bottom name | named name => simp [startsOperand, name_starts name]
      | inverseOf opens => simp [startsOperand, opens_first opens, Token.isWord]
    smaller := spelled.isLocal.size_lt
    reads := fun here enough _ resolve =>
      (readsUpTo_objectPropertyWithin spelled here (by omega) resolve).readsTo here }

theorem readsUpTo_dataProperty {scope : Scope} {property : DataPropertyExpression}
    (spelled : DataProperty scope.prefixes property input rest) (here : session.At input)
    (resolve : ∀ declaration ∈ property.references, session.store.Resolves declaration) :
    ReadsUpTo (dataProperty scope) session property rest := by
  cases spelled with
  | top name => exact readsUpTo_upper name here
  | bottom name => exact readsUpTo_lower name (by decide) here
  | named name =>
    exact readsUpTo_named name here (resolve _ (List.mem_singleton_self _)) (by simp)
      (Vocabulary.owlName?_owl_ne_none (by decide)) (Vocabulary.owlName?_owl_ne_none (by decide))

theorem dataProperty_accepted (scope : Scope) (limit : Nat) :
    Accepts (dataProperty scope) (DataProperty scope.prefixes)
      DataPropertyExpression.references limit := fun _ _ _ spelled =>
  { starts := by
      cases spelled with
      | top name | bottom name | named name => simp [startsOperand, name_starts name]
    smaller := spelled.isLocal.size_lt
    reads := fun here _ _ resolve => (readsUpTo_dataProperty spelled here resolve).readsTo here }

theorem readsUpTo_datatype {scope : Scope} {iri : Iri}
    (spelled : Name scope.prefixes.resolve? iri input rest) (here : session.At input)
    (resolve : Vocabulary.isBuiltinDatatype iri = false →
      session.store.Resolves ⟨.datatype, iri⟩) :
    ReadsUpTo (datatype scope) session iri rest := by
  obtain ⟨position, between, named, ahead⟩ := readsUpTo_name spelled here
  cases builtin : Vocabulary.isBuiltinDatatype iri with
  | true => exact ⟨between, Reads.bind_iff.mpr ⟨_, between, named, by simp [builtin]⟩, ahead⟩
  | false =>
    have known := ((named.grows.resolves_iff _).mpr (resolve builtin)).2
    obtain ⟨after, found, same⟩ := reads_find known
    refine ⟨after, Reads.bind_iff.mpr ⟨_, between, named, ?_⟩, by rw [same, ahead]⟩
    simp only [builtin]
    exact Reads.bind_iff.mpr ⟨_, after, found, by simp⟩

theorem readsUpTo_facet {scope : Scope} {facet : Facet}
    (spelled : Name scope.prefixes.resolve? facet.iri input rest) (here : session.At input) :
    ReadsUpTo (Grammar.facet scope) session facet rest := by
  refine readsUpTo_peek here fun next peeked seen there _ => ?_
  rw [if_pos (by rw [Scanned.token, seen, name_starts spelled])]
  obtain ⟨position, after, named, ahead⟩ := readsUpTo_name spelled there
  exact ⟨after, Reads.bind_iff.mpr ⟨_, after, named, by simp [Facet.ofIri?_of_iri]⟩, ahead⟩

/-! ## Sequences -/

theorem Ended.ofSequence {Spells : α → List Lexeme → List Lexeme → Prop} {values : List α}
    {last : List Lexeme} (sequence : Sequence Spells values input rest) (closes : Closes rest last)
    (starts : ∀ {value input rest}, Spells value input rest →
      startsOperand (firstLexeme input).token = true) : Ended input := by
  cases sequence with
  | nil => exact .ofCloses closes
  | cons first => exact .ofOperand (starts first)

theorem readsTo_untilClose_after {item : Reading α} {Spells : α → List Lexeme → List Lexeme → Prop}
    {references : α → List Declaration} {bound limit : Nat}
    (accepts : Accepts item Spells references bound) {values : List α} (before : List α)
    {last : List Lexeme} (sequence : Sequence Spells values input rest) (closes : Closes rest last)
    (here : session.At input) (within : size input < bound) (enough : size input < limit)
    (resolve : ∀ declaration ∈ values.flatMap references, session.store.Resolves declaration) :
    ReadsTo (Reading.untilClose item before limit) session (before.reverse ++ values) rest := by
  induction sequence generalizing session before limit with
  | nil =>
    obtain ⟨limit, rfl⟩ := Nat.exists_eq_succ_of_ne_zero (Nat.ne_zero_of_lt enough)
    obtain ⟨next, peeked, look, seen, there⟩ := reads_peek here
    refine ⟨peeked, Reads.bind_iff.mpr ⟨next, peeked, look, ?_⟩, there⟩
    have kind : next.token = .closeParen := by rw [Scanned.token, seen, closes_first closes]
    simp [kind]
  | @cons value others _ _ _ spelled sequence ih =>
    obtain ⟨limit, rfl⟩ := Nat.exists_eq_succ_of_ne_zero (Nat.ne_zero_of_lt enough)
    obtain ⟨next, peeked, look, seen, there⟩ := reads_peek here
    have resolve := look.grows.resolves resolve
    rw [List.flatMap_cons] at resolve
    obtain ⟨starts, fewer, reads⟩ := accepts spelled
    rw [← seen, ← Scanned.token] at starts
    obtain ⟨between, read, betweenAt⟩ := reads there within
      (.ofSequence sequence closes fun spelled => (accepts spelled).starts)
      (fun declaration member => resolve declaration (List.mem_append_left _ member))
    obtain ⟨after, readOthers, afterAt⟩ := ih (value :: before) closes betweenAt (by omega)
      (show _ < limit by omega)
      (read.grows.resolves fun declaration member =>
        resolve declaration (List.mem_append_right _ member))
    refine ⟨after, Reads.bind_iff.mpr ⟨next, peeked, look, ?_⟩, afterAt⟩
    -- The operand starts with a lexeme of its own, so neither end of the list is seen here.
    have readAll : Reads .lenient (do Reading.untilClose item ((← item) :: before) limit) peeked
        ((value :: before).reverse ++ others) after :=
      Reads.bind_iff.mpr ⟨value, between, read, readOthers⟩
    rw [List.reverse_cons, List.append_assoc, List.singleton_append] at readAll
    split
    · next close => exact absurd close (startsOperand_ne starts).1
    · next ended => exact absurd ended (startsOperand_ne starts).2.1
    · exact readAll

theorem readsTo_untilClose {item : Reading α} {Spells : α → List Lexeme → List Lexeme → Prop}
    {references : α → List Declaration} {bound limit : Nat}
    (accepts : Accepts item Spells references bound) {values : List α} {last : List Lexeme}
    (sequence : Sequence Spells values input rest) (closes : Closes rest last)
    (here : session.At input) (within : size input < bound) (enough : size input < limit)
    (resolve : ∀ declaration ∈ values.flatMap references, session.store.Resolves declaration) :
    ReadsTo (Reading.untilClose item [] limit) session values rest :=
  readsTo_untilClose_after accepts [] sequence closes here within enough resolve

theorem Accepts.operands {keyword : Keyword} {item : Reading α}
    {Spells : α → List Lexeme → List Lexeme → Prop} {references : α → List Declaration}
    {bound limit : Nat} (accepts : Accepts item Spells references bound) {operands : List α}
    {first second : List Lexeme} (opens : Opens keyword input first)
    (sequence : Sequence Spells operands first second) (closes : Closes second rest)
    (here : session.At input) (enough : size input ≤ bound) (within : bound ≤ limit)
    (resolve : ∀ declaration ∈ operands.flatMap references, session.store.Resolves declaration) :
    ReadsUpTo (enclosed keyword (Reading.untilClose item [] limit)) session operands rest := by
  refine readsUpTo_enclosed opens here (fun opened openedAt grown => ?_) closes
  have fewer := opens.isLocal.size_lt
  exact readsTo_untilClose accepts sequence closes openedAt (by omega) (by omega)
    (grown.resolves resolve)

theorem Accepts.counted {β : Type} {keyword : Keyword} {least : Nat} {position : Position}
    {item : Reading α} {make : List α → β} {Spells : α → List Lexeme → List Lexeme → Prop}
    {references : α → List Declaration} {bound limit : Nat}
    (accepts : Accepts item Spells references bound) {operands : List α}
    {first second : List Lexeme} (opens : Opens keyword input first)
    (sequence : Sequence Spells operands first second) (several : least ≤ operands.length)
    (closes : Closes second rest) (here : session.At input) (enough : size input ≤ bound)
    (within : bound ≤ limit)
    (resolve : ∀ declaration ∈ operands.flatMap references, session.store.Resolves declaration) :
    ReadsUpTo (do
      let operands ← enclosed keyword (Reading.untilClose item [] limit)
      make <$> checkCount keyword least position operands) session (make operands) rest := by
  refine (accepts.operands opens sequence closes here enough within resolve).finish fun after => ?_
  refine Reads.map_iff.mpr ⟨operands, ?_, rfl⟩
  exact Recognition.checkCount_iff.mpr ⟨rfl, rfl, several⟩

theorem Accepts.single {β : Type} {keyword : Keyword} {position : Position} {item : Reading α}
    {make : α → β} {Spells : α → List Lexeme → List Lexeme → Prop}
    {references : α → List Declaration} {bound limit : Nat}
    (accepts : Accepts item Spells references bound) {operand : α} {first second : List Lexeme}
    (opens : Opens keyword input first) (spelled : Spells operand first second)
    (closes : Closes second rest) (here : session.At input) (enough : size input ≤ bound)
    (within : bound ≤ limit)
    (resolve : ∀ declaration ∈ references operand, session.store.Resolves declaration) :
    ReadsUpTo (do
      let operands ← enclosed keyword (Reading.untilClose item [] limit)
      make <$> onlyOperand keyword position operands) session (make operand) rest := by
  refine (accepts.operands opens (.cons spelled .nil) closes here enough within
    (by simpa using resolve)).finish fun after => Reads.map_iff.mpr ⟨operand, ?_, rfl⟩
  exact Recognition.onlyOperand_iff.mpr ⟨rfl, rfl⟩

theorem literal_starts {prefixes : Prefixes} {literal : Literal}
    (spelled : Spelling.Literal prefixes literal input rest) :
    (firstLexeme input).token.startsLiteral = true := by
  cases spelled with
  | boolean takes | integer takes | decimal takes | string takes =>
    simp [takes.first, Token.startsLiteral]

theorem literal_accepted {scope : Scope} {limit : Nat} (within : limit ≤ scope.limit) :
    Accepts (Grammar.literal scope) (Spelling.Literal scope.prefixes) (fun _ => []) limit :=
  fun _ _ _ spelled =>
  { starts := by simp [startsOperand, literal_starts spelled]
    smaller := spelled.size_lt
    reads := fun here enough ended _ => readsTo_literal spelled here (by omega) ended }

theorem anonymous_starts {label name : String} (short : ShortName label name input rest) :
    startsOperand (firstLexeme input).token = true := by
  rcases shortName_first short with first | ⟨first, -⟩ <;>
    simp [first, startsOperand, Token.startsName]

theorem individual_accepted (scope : Scope) (limit : Nat) :
    Accepts (Grammar.individual scope) (Spelling.Individual scope.prefixes) Individual.references
      limit := fun _ _ _ spelled =>
  { starts := by
      cases spelled with
      | named name => simp [startsOperand, name_starts name]
      | anonymous short => exact anonymous_starts short
    smaller := spelled.isLocal.size_lt
    reads := fun here _ _ resolve => (readsUpTo_individual spelled here resolve).readsTo here }

/-! ## Data ranges -/

theorem facetPair_accepted (scope : Scope) :
    Accepts (do pure ⟨← facet scope, ← Grammar.literal scope⟩) (FacetPair scope.prefixes)
      (fun _ => []) scope.limit := by
  rintro pair input rest ⟨middle, name, value⟩
  have named : Passes (Grammar.facet scope) pair.facet [] scope.limit input middle :=
    { starts := by simp [startsOperand, name_starts name]
      smaller := name.isLocal.size_lt
      reads := fun here _ _ _ => (readsUpTo_facet name here).readsTo here }
  exact named.pair (literal_accepted (Nat.le_refl _) value)

theorem readsTo_facets {scope : Scope} {limit : Nat} {pairs : List FacetRestriction}
    (before : List FacetRestriction) {last : List Lexeme}
    (sequence : Sequence (FacetPair scope.prefixes) pairs input rest) (closes : Closes rest last)
    (here : session.At input) (within : size input < scope.limit) (enough : size input < limit) :
    ReadsTo (facets scope before limit) session (before.reverse ++ pairs) rest := by
  induction sequence generalizing session before limit with
  | nil =>
    obtain ⟨limit, rfl⟩ := Nat.exists_eq_succ_of_ne_zero (Nat.ne_zero_of_lt enough)
    obtain ⟨next, peeked, look, seen, there⟩ := reads_peek here
    refine ⟨peeked, Reads.bind_iff.mpr ⟨next, peeked, look, ?_⟩, there⟩
    have kind : next.token = .closeParen := by rw [Scanned.token, seen, closes_first closes]
    simp [kind]
  | @cons pair others _ _ _ spelled sequence ih =>
    obtain ⟨limit, rfl⟩ := Nat.exists_eq_succ_of_ne_zero (Nat.ne_zero_of_lt enough)
    obtain ⟨next, peeked, look, seen, there⟩ := reads_peek here
    obtain ⟨starts, fewer, reads⟩ := facetPair_accepted scope spelled
    obtain ⟨between, read, betweenAt⟩ := reads there within
      (.ofSequence sequence closes fun spelled => (facetPair_accepted scope spelled).starts)
      (by simp)
    obtain ⟨after, readOthers, afterAt⟩ := ih (pair :: before) closes betweenAt (by omega)
      (show _ < limit by omega)
    refine ⟨after, Reads.bind_iff.mpr ⟨next, peeked, look, ?_⟩, afterAt⟩
    rw [← seen, ← Scanned.token] at starts
    rw [if_neg (startsOperand_ne starts).1]
    rw [List.reverse_cons, List.append_assoc, List.singleton_append] at readOthers
    exact Reads.bind_iff.mpr ⟨pair, between, Reads.within_iff.mpr read, readOthers⟩

theorem dataRange_starts {prefixes : Prefixes} {range : DataRange}
    (spelled : Spelling.DataRange prefixes range input rest) :
    startsOperand (firstLexeme input).token = true := by
  cases spelled with
  | builtin _ name | named _ name => simp [startsOperand, name_starts name]
  | restriction opens | junction opens | complementOf opens | oneOf opens =>
    simp [startsOperand, opens_first opens, Token.isWord]

theorem name_tokens {resolve : String → String → Option Iri} {iri : Iri} {next : Scanned}
    (name : Name resolve iri input rest) (seen : next.lexeme = firstLexeme input) :
    next.token = .iri ∨ next.token = .word ∨ next.token = .colon := by
  have starts := name_starts name
  rw [← seen, ← Scanned.token] at starts
  cases kind : next.token <;> simp [kind, Token.startsName] at starts ⊢

theorem readsUpTo_namedRange {scope : Scope} {iri : Iri}
    (name : Name scope.prefixes.resolve? iri input rest) (here : session.At input)
    (resolve : Vocabulary.isBuiltinDatatype iri = false →
      session.store.Resolves ⟨.datatype, iri⟩) :
    ReadsUpTo (namedRange scope) session
      (if Vocabulary.isBuiltinDatatype iri then .builtin iri else .named ⟨iri⟩) rest := by
  obtain ⟨after, read, ahead⟩ := readsUpTo_datatype name here resolve
  exact ⟨after, Reads.bind_iff.mpr ⟨iri, after, Reads.within_iff.mpr read, by simp⟩, ahead⟩

theorem readsUpTo_restriction {scope : Scope} {iri : Iri} {pairs : List FacetRestriction}
    {position : Position} {first second third : List Lexeme}
    (opens : Opens .datatypeRestriction input first)
    (named : Name scope.prefixes.resolve? iri first second)
    (sequence : Sequence (FacetPair scope.prefixes) pairs second third)
    (several : 1 ≤ pairs.length) (closes : Closes third rest) (here : session.At input)
    (enough : size input ≤ scope.limit)
    (resolve : Vocabulary.isBuiltinDatatype iri = false →
      session.store.Resolves ⟨.datatype, iri⟩) :
    ReadsUpTo (do
      let (iri, restrictions) ← enclosed .datatypeRestriction do
        let iri ← (datatype scope).within .namedDatatype
        pure (iri, ← facets scope [] scope.limit)
      let restrictions ← checkCount .datatypeRestriction 1 position restrictions
      pure (.restriction iri restrictions)) session (DataRange.restriction iri pairs) rest := by
  have fewer := opens.isLocal.size_lt
  have later := named.isLocal.size_lt
  have inside : ReadsUpTo (enclosed .datatypeRestriction do
      let iri ← (datatype scope).within .namedDatatype
      pure (iri, ← facets scope [] scope.limit)) session (iri, pairs) rest := by
    refine readsUpTo_enclosed opens here (fun opened openedAt grown => ?_) closes
    have base := readsUpTo_datatype named openedAt fun foreign =>
      (grown.resolves_iff _).mpr (resolve foreign)
    refine (base.readsTo openedAt).within.bind fun between betweenAt _ => ?_
    exact (readsTo_facets [] sequence closes betweenAt (by omega) (by omega)).bind
      fun _ facetedAt _ => .pure facetedAt
  exact inside.finish fun after => Reads.bind_iff.mpr
    ⟨pairs, after, Recognition.checkCount_iff.mpr ⟨rfl, rfl, several⟩, by simp⟩

theorem readsUpTo_dataRangeWithin {scope : Scope} {limit : Nat} {range : DataRange}
    (spelled : Spelling.DataRange scope.prefixes range input rest) (here : session.At input)
    (within : limit ≤ scope.limit) (enough : size input < limit)
    (resolve : ∀ declaration ∈ range.references, session.store.Resolves declaration) :
    ReadsUpTo (dataRangeWithin scope limit) session range rest := by
  induction limit generalizing session input rest range with
  | zero => omega
  | succ limit ih =>
    -- A nested range has fewer lexemes, so the bound that is left is enough for it.
    have operand : Accepts (dataRangeWithin scope limit) (Spelling.DataRange scope.prefixes)
        DataRange.references limit := fun _ _ _ spelled =>
      ⟨dataRange_starts spelled, spelled.isLocal.size_lt, fun here enough _ resolve =>
        (ih spelled here (by omega) enough resolve).readsTo here⟩
    refine readsUpTo_peek here fun next peeked seen there grown => ?_
    have resolve := grown.resolves resolve
    cases spelled with
    | builtin builtin name =>
      have read := readsUpTo_namedRange name there (by simp [builtin])
      rw [if_pos builtin] at read
      rcases name_tokens name seen with kind | kind | kind <;> simp only [kind] <;> exact read
    | named foreign name =>
      have read := readsUpTo_namedRange name there fun _ =>
        resolve _ (by simp [DataRange.references])
      rw [if_neg (by simp [foreign])] at read
      rcases name_tokens name seen with kind | kind | kind <;> simp only [kind] <;> exact read
    | restriction opens name pairs several closes =>
      simp only [opens_token opens seen]
      exact readsUpTo_restriction opens name pairs several closes there (by omega)
        fun foreign => resolve _ (by simp [DataRange.references, foreign])
    | junction opens operands several closes =>
      simp only [opens_token opens seen]
      rw [DataRange.references, DataRange.referencesOfAll_eq] at resolve
      exact operand.counted opens operands several closes there (by omega) (by omega) resolve
    | complementOf opens inner closes =>
      simp only [opens_token opens seen]
      exact operand.single opens inner closes there (by omega) (by omega) resolve
    | oneOf opens values several closes =>
      simp only [opens_token opens seen]
      exact (literal_accepted (Nat.le_refl _)).counted opens values several closes there (by omega)
        (Nat.le_refl _) (by simp)

theorem dataRange_accepted {scope : Scope} {limit : Nat} (within : limit ≤ scope.limit) :
    Accepts (dataRange scope) (Spelling.DataRange scope.prefixes) DataRange.references limit :=
  fun _ _ _ spelled =>
  { starts := dataRange_starts spelled
    smaller := spelled.isLocal.size_lt
    reads := fun here enough _ resolve => (readsUpTo_dataRangeWithin spelled here (Nat.le_refl _)
      (by omega) resolve).readsTo here }

/-! ## Class expressions -/

theorem cardinality_accepted (limit : Nat) :
    Accepts cardinality Cardinality (fun _ => []) limit := fun _ _ _ spelled => by
  refine ⟨?_, spelled.isLocal.size_lt, fun here _ _ _ => ?_⟩ <;>
    obtain ⟨literal, takes, value⟩ := spelled
  · simp [takes.first, startsOperand, Token.startsLiteral]
  · obtain ⟨scanned, after, scan, same, ahead⟩ := readsUpTo_token takes here
    refine ⟨after, Reads.bind_iff.mpr ⟨scanned, after, scan, ?_⟩, scan.atAhead here ahead⟩
    simp [Scanned.token, Scanned.literal, same, value]

theorem readsTo_absent {operand : Reading α} (closes : Closes input rest) (here : session.At input) :
    ReadsTo (optionalOperand operand) session none input := by
  obtain ⟨next, peeked, look, seen, there⟩ := reads_peek here
  refine ⟨peeked, Reads.bind_iff.mpr ⟨next, peeked, look, ?_⟩, there⟩
  have kind : next.token = .closeParen := by rw [Scanned.token, seen, closes_first closes]
  simp [kind]

theorem Passes.present {operand : Reading α} {value : α} {references : List Declaration}
    {limit : Nat} (passes : Passes operand value references limit input rest) :
    Passes (optionalOperand operand) (some value) references limit input rest where
  starts := passes.starts
  smaller := passes.smaller
  reads here enough ended resolve := by
    obtain ⟨next, peeked, look, seen, there⟩ := reads_peek here
    obtain ⟨after, read, afterAt⟩ := passes.reads there enough ended (look.grows.resolves resolve)
    refine ⟨after, Reads.bind_iff.mpr ⟨next, peeked, look, ?_⟩, afterAt⟩
    have starts := passes.starts
    rw [← seen, ← Scanned.token] at starts
    rw [if_neg (startsOperand_ne starts).1]
    exact Reads.map_iff.mpr ⟨value, read, rfl⟩

section

variable {β δ : Type} {one : Reading α} {two : Reading β} {first : α} {second : β} {value : δ}
  {count : UInt32} {next : UInt32 → α → Option β → Reading δ} {limit : Nat}
  {references others : List Declaration} {middle later last : List Lexeme}

/-- Only the number of values of a property is bounded. -/
theorem Passes.bounded (property : Passes one first references limit middle rest)
    (number : Cardinality count input middle) (closes : Closes rest last)
    (made : next count first none = pure value) :
    Passes (do
      let count ← cardinality
      let property ← one
      let operand ← optionalOperand two
      next count property operand) value references limit input rest := by
  refine (cardinality_accepted limit number).bind ⟨property.starts, property.smaller, ?_⟩
  intro session here enough ended resolve
  refine (property.reads here enough ended resolve).bind fun between there _ => ?_
  refine (readsTo_absent closes there).bind fun looked lookedAt _ => ?_
  rw [made]
  exact .pure lookedAt

/-- What the values are is told after the property. -/
theorem Passes.qualified (property : Passes one first references limit middle later)
    (number : Cardinality count input middle) (operand : Passes two second others limit later rest)
    (made : next count first (some second) = pure value) :
    Passes (do
      let count ← cardinality
      let property ← one
      let operand ← optionalOperand two
      next count property operand) value (references ++ others) limit input rest := by
  refine (cardinality_accepted limit number).bind (property.bind ?_)
  refine ⟨operand.starts, operand.smaller, fun here enough ended resolve => ?_⟩
  refine (operand.present.reads here enough ended resolve).bind fun _ there _ => ?_
  rw [made]
  exact .pure there

end

theorem readsUpTo_namedClass {scope : Scope} {expression : ClassExpression}
    (spelled : Class scope.prefixes expression input rest) (named : expression.isNamed = true)
    (here : session.At input)
    (resolve : ∀ declaration ∈ expression.references, session.store.Resolves declaration) :
    ReadsUpTo (namedClass scope) session expression rest := by
  cases spelled with
  | thing name => exact readsUpTo_upper name here
  | nothing name => exact readsUpTo_lower name (by decide) here
  | named name =>
    exact readsUpTo_named name here (resolve _ (by simp [ClassExpression.references])) (by simp)
      (Vocabulary.owlName?_owl_ne_none (by decide)) (Vocabulary.owlName?_owl_ne_none (by decide))
  | _ => simp [ClassExpression.isNamed] at named

theorem class_starts {prefixes : Prefixes} {expression : ClassExpression}
    (spelled : Class prefixes expression input rest) :
    startsOperand (firstLexeme input).token = true := by
  cases spelled with
  | thing name | nothing name | named name => simp [startsOperand, name_starts name]
  | junction opens | complementOf opens | oneOf opens | objectQuantified opens
  | objectHasValue opens | objectHasSelf opens | objectCardinality opens | objectQualified opens
  | dataQuantified opens | dataHasValue opens | dataCardinality opens | dataQualified opens =>
    simp [startsOperand, opens_first opens, Token.isWord]

/-- One level of a class expression is read where those inside of it are. -/
theorem readsUpTo_classExpression_succ {scope : Scope} {limit : Nat} {expression : ClassExpression}
    (operand : Accepts (classExpressionWithin scope limit) (Class scope.prefixes)
      ClassExpression.references limit)
    (spelled : Class scope.prefixes expression input rest) (here : session.At input)
    (within : limit ≤ scope.limit) (enough : size input ≤ limit)
    (resolve : ∀ declaration ∈ expression.references, session.store.Resolves declaration) :
    ReadsUpTo (classExpressionWithin scope (limit + 1)) session expression rest := by
  have object := objectProperty_accepted within
  have data := dataProperty_accepted scope limit
  have individual := individual_accepted scope limit
  have ranged := dataRange_accepted within
  refine readsUpTo_peek here fun next peeked seen there grown => ?_
  have resolve := grown.resolves resolve
  have whole := spelled
  cases spelled with
  | thing name | nothing name | named name =>
    have read := readsUpTo_namedClass whole rfl there resolve
    rcases name_tokens name seen with kind | kind | kind <;> simp only [kind] <;> exact read
  | junction opens operands several closes =>
    simp only [opens_token opens seen]
    rw [ClassExpression.references, ClassExpression.referencesOfAll_eq] at resolve
    exact operand.counted opens operands several closes there enough within resolve
  | complementOf opens inner closes =>
    simp only [opens_token opens seen]
    exact operand.single opens inner closes there enough within resolve
  | oneOf opens individuals several closes =>
    simp only [opens_token opens seen]
    exact individual.counted opens individuals several closes there enough within resolve
  | objectQuantified opens property filler closes =>
    simp only [opens_token opens seen]
    exact ((object property).pair (operand filler)).enclosed opens closes there enough resolve
  | objectHasValue opens property value closes =>
    simp only [opens_token opens seen]
    exact ((object property).pair (individual value)).enclosed opens closes there enough resolve
  | objectHasSelf opens property closes =>
    simp only [opens_token opens seen]
    exact (object property).unary.enclosed opens closes there enough resolve
  | objectCardinality opens count property closes =>
    simp only [opens_token opens seen]
    exact ((object property).bounded count closes rfl).enclosed opens closes there enough resolve
  | objectQualified opens count property filler closes =>
    simp only [opens_token opens seen]
    exact ((object property).qualified count (operand filler) rfl).enclosed opens closes there
      enough resolve
  | dataQuantified opens property range closes =>
    simp only [opens_token opens seen]
    exact ((data property).pair (ranged range)).enclosed opens closes there enough resolve
  | dataHasValue opens property value closes =>
    simp only [opens_token opens seen]
    exact ((data property).within.pair (literal_accepted within value).within).enclosed opens closes
      there enough (by simpa [ClassExpression.references] using resolve)
  | dataCardinality opens count property closes =>
    simp only [opens_token opens seen]
    exact ((data property).bounded count closes rfl).enclosed opens closes there enough resolve
  | dataQualified opens count property range closes =>
    simp only [opens_token opens seen]
    exact ((data property).qualified count (ranged range).within rfl).enclosed opens closes there
      enough resolve

theorem readsUpTo_classExpressionWithin {scope : Scope} {limit : Nat} {expression : ClassExpression}
    (spelled : Class scope.prefixes expression input rest) (here : session.At input)
    (within : limit ≤ scope.limit) (enough : size input < limit)
    (resolve : ∀ declaration ∈ expression.references, session.store.Resolves declaration) :
    ReadsUpTo (classExpressionWithin scope limit) session expression rest := by
  induction limit generalizing session input rest expression with
  | zero => omega
  | succ limit ih =>
    -- A nested expression has fewer lexemes, so the bound that is left is enough for it.
    have operand : Accepts (classExpressionWithin scope limit) (Class scope.prefixes)
        ClassExpression.references limit := fun _ _ _ spelled =>
      ⟨class_starts spelled, spelled.isLocal.size_lt, fun here enough _ resolve =>
        (ih spelled here (by omega) enough resolve).readsTo here⟩
    exact readsUpTo_classExpression_succ operand spelled here (by omega) (by omega) resolve

theorem class_accepted {scope : Scope} {limit : Nat} (within : limit ≤ scope.limit) :
    Accepts (classExpression scope) (Class scope.prefixes) ClassExpression.references limit :=
  fun _ _ _ spelled =>
  { starts := class_starts spelled
    smaller := spelled.isLocal.size_lt
    reads := fun here enough _ resolve => (readsUpTo_classExpressionWithin spelled here
      (Nat.le_refl _) (by omega) resolve).readsTo here }

end Acceptance

end OwlFunctional
