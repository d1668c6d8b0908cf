import OwlFunctional.Proofs.Recognition.Expression
import OwlFunctional.Proofs.Spelling.Document

/-! What the readings of statements give is spelled by what they read. -/

set_option autoImplicit false

namespace OwlFunctional.Recognition

open Spelling Grammar

variable {checks : Checks} {session after : Session Catalogue} {input : List Lexeme}

/-! ## Annotations -/

theorem annotationProperty_spelled {scope : Scope} {property : Entity .annotationProperty}
    (read : Reads checks (annotationProperty scope) session property after)
    (here : session.At input) :
    Name scope.prefixes.resolve? property.iri input after.stream.ahead ∧
      ∀ declaration ∈ annotationReferences property, after.store.Holds declaration := by
  obtain ⟨⟨iri, position⟩, between, named, read⟩ := Reads.bind_iff.mp read
  have spelled := name_spelled named here
  dsimp only at read
  split at read
  · next builtin =>
    obtain ⟨rfl, rfl⟩ := Reads.pure_iff.mp read
    exact ⟨spelled, by simp [annotationReferences, builtin]⟩
  · next foreign =>
    obtain ⟨rfl, same, held⟩ := declared_found read
    rw [same]
    exact ⟨spelled, by simpa [annotationReferences, foreign] using held⟩

theorem annotationSubject_spelled {scope : Scope} {subject : AnnotationSubject}
    (read : Reads checks (annotationSubject scope) session subject after)
    (here : session.At input) :
    Spelling.AnnotationSubject scope.prefixes subject input after.stream.ahead := by
  rcases marked_cases read here with ⟨label, rfl, short, -⟩ | ⟨looked, there, other, read⟩
  · exact .anonymous short
  · obtain ⟨⟨iri, position⟩, between, named, read⟩ := Reads.bind_iff.mp read
    obtain ⟨rfl, rfl⟩ := Reads.pure_iff.mp read
    exact .iri (name_globally (name_spelled (Reads.within_iff.mp named) there) other)

theorem annotationValue_spelled {scope : Scope} {value : AnnotationValue}
    (read : Reads checks (annotationValue scope) session value after) (here : session.At input) :
    ∃ rest, Spelling.AnnotationValue scope.prefixes value input rest ∧ after.At rest := by
  obtain ⟨next, peeked, look, read⟩ := Reads.bind_iff.mp read
  obtain ⟨-, there⟩ := look.peek_at here
  split at read
  · obtain ⟨content, ended, literal, read⟩ := Reads.bind_iff.mp read
    obtain ⟨rfl, rfl⟩ := Reads.pure_iff.mp read
    obtain ⟨rest, spelled, afterAt⟩ := literal_spelled literal there
    exact ⟨rest, .literal spelled, afterAt⟩
  · rcases marked_cases read there with ⟨label, rfl, short, ended⟩ | ⟨looked, there, other, read⟩
    · exact ⟨_, .anonymous short, ended⟩
    · obtain ⟨⟨iri, position⟩, between, named, read⟩ := Reads.bind_iff.mp read
      obtain ⟨rfl, rfl⟩ := Reads.pure_iff.mp read
      have spelled := name_spelled (Reads.within_iff.mp named) there
      exact ⟨_, .iri (name_globally spelled other), named.atItself there⟩

theorem annotationProperty_recognized (scope : Scope) :
    Recognizes checks (annotationProperty scope)
      (fun property => Name scope.prefixes.resolve? property.iri) annotationReferences :=
  .ofExact annotationProperty_spelled

theorem annotationSubject_recognized (scope : Scope) :
    Recognizes checks (annotationSubject scope) (Spelling.AnnotationSubject scope.prefixes)
      fun _ => [] :=
  .ofExact fun read here => ⟨annotationSubject_spelled read here, by simp⟩

theorem annotationValue_recognized (scope : Scope) :
    Recognizes checks (annotationValue scope) (Spelling.AnnotationValue scope.prefixes)
      fun _ => [] :=
  fun _ _ _ _ read here => ⟨annotationValue_spelled read here, by simp⟩

theorem singleNote_spelled {scope : Scope} {note : Annotation}
    (read : Reads checks (singleNote scope) session note after) (here : session.At input) :
    Spelling.Note scope.prefixes note input after.stream.ahead ∧
      ∀ declaration ∈ note.references, after.store.Holds declaration :=
  enclosedPair_spelled ((annotationProperty_recognized scope).within _)
    ((annotationValue_recognized scope).within _) read here
    (fun opens name value closes => ⟨_, _, _, opens, name, value, closes⟩)
    fun _ _ => by rw [List.append_nil]; exact List.Subset.refl _

theorem annotationsAfter_spelled {scope : Scope} {limit : Nat} {before notes : List Annotation}
    (read : Reads checks (annotationsAfter scope before limit) session notes after)
    (here : session.At input) :
    ∃ others rest, notes = before.reverse ++ others ∧
      Sequence (Spelling.Note scope.prefixes) others input rest ∧ after.At rest ∧
      ∀ declaration ∈ others.flatMap Annotation.references, after.store.Holds declaration := by
  induction limit generalizing session before input with
  | zero => simp [annotationsAfter, Reading.limitReached, Reads.bind_iff] at read
  | succ limit ih =>
    obtain ⟨next, peeked, look, read⟩ := Reads.bind_iff.mp read
    obtain ⟨-, there⟩ := look.peek_at here
    split at read
    · obtain ⟨note, between, first, read⟩ := Reads.bind_iff.mp read
      have first := Reads.within_iff.mp first
      obtain ⟨spelled, held⟩ := singleNote_spelled first there
      obtain ⟨others, rest, rfl, sequence, afterAt, othersHeld⟩ := ih read (first.atItself there)
      refine ⟨note :: others, rest, by simp, .cons spelled sequence, afterAt, ?_⟩
      rw [List.flatMap_cons]
      exact holds_append held othersHeld read.grows (.refl _)
    · obtain ⟨rfl, rfl⟩ := Reads.pure_iff.mp read
      exact ⟨[], input, by simp, .nil, there, by simp⟩

theorem annotations_spelled {scope : Scope} {notes : List Annotation}
    (read : Reads checks (annotations scope) session notes after) (here : session.At input) :
    (∃ rest, Sequence (Spelling.Note scope.prefixes) notes input rest ∧ after.At rest) ∧
      ∀ declaration ∈ notes.flatMap Annotation.references, after.store.Holds declaration := by
  obtain ⟨others, rest, rfl, sequence, afterAt, held⟩ := annotationsAfter_spelled read here
  exact ⟨⟨rest, sequence, afterAt⟩, held⟩

/-! ## Axioms -/

theorem classExpression_recognized (scope : Scope) :
    Recognizes checks (classExpression scope) (Class scope.prefixes) ClassExpression.references :=
  .ofExact classExpressionWithin_spelled

theorem name_recognized (scope : Scope) :
    Recognizes checks (name scope) (fun found => Name scope.prefixes.resolve? found.1)
      fun _ => [] :=
  .ofExact fun read here => ⟨name_spelled read here, by simp⟩

theorem atLeastTwo_ok {α : Type} {keyword : Keyword} {make : List α → Axiom} {given : List α}
    {statement : Axiom} (counted : atLeastTwo keyword make given = .ok statement) :
    make given = statement ∧ 2 ≤ given.length := by
  unfold atLeastTwo at counted
  split at counted
  · simp at counted
  · exact ⟨Except.ok.inj counted, by omega⟩

/-- A list of at least two operands. -/
theorem several_spelled {α : Type} {item : Reading α}
    {Spells : α → List Lexeme → List Lexeme → Prop} {references : α → List Declaration}
    (sound : Recognizes checks item Spells references) {keyword : Keyword} {limit : Nat}
    {make : List α → Axiom} {statement : Axiom}
    (read : Reads checks (do
      let operands ← Reading.untilClose item [] limit
      pure (atLeastTwo keyword make operands)) session (.ok statement) after)
    (here : session.At input) :
    ∃ operands rest, make operands = statement ∧ Sequence Spells operands input rest ∧
      2 ≤ operands.length ∧ after.At rest ∧
      ∀ declaration ∈ operands.flatMap references, after.store.Holds declaration := by
  obtain ⟨operands, between, core, read⟩ := Reads.bind_iff.mp read
  obtain ⟨counted, rfl⟩ := Reads.pure_iff.mp read
  obtain ⟨⟨rest, sequence, afterAt⟩, held⟩ := untilClose_recognized sound limit core here
  obtain ⟨made, enough⟩ := atLeastTwo_ok counted
  exact ⟨operands, rest, made, sequence, enough, afterAt, held⟩

/-- An axiom was read from its operands up to where the session stands. -/
structure ReadAxiom (prefixes : Prefixes) (keyword : Keyword) (statement : Axiom)
    (input : List Lexeme) (after : Session Catalogue) : Prop where
  keyword_eq : statement.keyword = keyword
  spelled : ∃ rest, Operands prefixes statement input rest ∧ after.At rest
  held : ∀ declaration ∈ statement.references, after.store.Holds declaration

namespace ReadAxiom

variable {α β γ : Type} {first : Reading α} {second : Reading β} {third : Reading γ}
  {FirstSpells : α → List Lexeme → List Lexeme → Prop}
  {SecondSpells : β → List Lexeme → List Lexeme → Prop}
  {ThirdSpells : γ → List Lexeme → List Lexeme → Prop}
  {firstReferences : α → List Declaration} {secondReferences : β → List Declaration}
  {thirdReferences : γ → List Declaration} {prefixes : Prefixes} {keyword : Keyword}
  {statement : Axiom}

theorem ofOne (sound : Recognizes checks first FirstSpells firstReferences) {make : α → Axiom}
    (read : Reads checks (do pure (.ok (make (← first)))) session (.ok statement : Counted) after)
    (here : session.At input)
    (spells : ∀ {one input rest}, FirstSpells one input rest →
      Operands prefixes (make one) input rest)
    (keyed : ∀ one, (make one).keyword = keyword := by exact fun _ => rfl)
    (refers : ∀ one, (make one).references ⊆ firstReferences one := by simp [Axiom.references]) :
    ReadAxiom prefixes keyword statement input after := by
  obtain ⟨one, between, core, read⟩ := Reads.bind_iff.mp read
  obtain ⟨made, rfl⟩ := Reads.pure_iff.mp read
  obtain rfl := Except.ok.inj made
  obtain ⟨⟨rest, spelled, afterAt⟩, held⟩ := sound core here
  exact ⟨keyed one, ⟨rest, spells spelled, afterAt⟩,
    fun declaration member => held declaration (refers one member)⟩

theorem ofPair (sound : Recognizes checks first FirstSpells firstReferences)
    (soundNext : Recognizes checks second SecondSpells secondReferences) {make : α → β → Axiom}
    (read : Reads checks (do pure (.ok (make (← first) (← second)))) session
      (.ok statement : Counted) after)
    (here : session.At input)
    (spells : ∀ {one two input middle rest}, FirstSpells one input middle →
      SecondSpells two middle rest → Operands prefixes (make one two) input rest)
    (keyed : ∀ one two, (make one two).keyword = keyword := by exact fun _ _ => rfl)
    (refers : ∀ one two, (make one two).references ⊆
      firstReferences one ++ secondReferences two := by simp [Axiom.references]) :
    ReadAxiom prefixes keyword statement input after := by
  obtain ⟨one, two, middle, rest, made, spelled, spelledNext, afterAt, held⟩ :=
    pair_spelled sound soundNext read here
  obtain rfl := Except.ok.inj made
  exact ⟨keyed one two, ⟨rest, spells spelled spelledNext, afterAt⟩,
    fun declaration member => held declaration (refers one two member)⟩

theorem ofTriple (sound : Recognizes checks first FirstSpells firstReferences)
    (soundNext : Recognizes checks second SecondSpells secondReferences)
    (soundLast : Recognizes checks third ThirdSpells thirdReferences) {make : α → β → γ → Axiom}
    (read : Reads checks (do pure (.ok (make (← first) (← second) (← third)))) session
      (.ok statement : Counted) after)
    (here : session.At input)
    (spells : ∀ {one two three input middle more rest}, FirstSpells one input middle →
      SecondSpells two middle more → ThirdSpells three more rest →
      Operands prefixes (make one two three) input rest)
    (keyed : ∀ one two three, (make one two three).keyword = keyword := by
      exact fun _ _ _ => rfl)
    (refers : ∀ one two three, (make one two three).references ⊆
      firstReferences one ++ (secondReferences two ++ thirdReferences three) := by
      simp [Axiom.references]) :
    ReadAxiom prefixes keyword statement input after := by
  obtain ⟨one, two, three, middle, more, rest, made, spelled, spelledNext, spelledLast, afterAt,
    held⟩ := triple_spelled sound soundNext soundLast read here
  obtain rfl := Except.ok.inj made
  exact ⟨keyed one two three, ⟨rest, spells spelled spelledNext spelledLast, afterAt⟩,
    fun declaration member => held declaration (refers one two three member)⟩

theorem ofSeveral {limit : Nat} (sound : Recognizes checks first FirstSpells firstReferences)
    {make : List α → Axiom}
    (read : Reads checks (do
      let operands ← Reading.untilClose first [] limit
      pure (atLeastTwo keyword make operands)) session (.ok statement) after)
    (here : session.At input)
    (spells : ∀ {operands input rest}, Sequence FirstSpells operands input rest →
      2 ≤ operands.length → Operands prefixes (make operands) input rest)
    (keyed : ∀ operands, (make operands).keyword = keyword := by exact fun _ => rfl)
    (refers : ∀ operands, (make operands).references ⊆ operands.flatMap firstReferences := by
      simp [Axiom.references]) :
    ReadAxiom prefixes keyword statement input after := by
  obtain ⟨operands, rest, rfl, sequence, enough, afterAt, held⟩ := several_spelled sound read here
  exact ⟨keyed operands, ⟨rest, spells sequence enough, afterAt⟩,
    fun declaration member => held declaration (refers operands member)⟩

end ReadAxiom

theorem subClassOf_spelled {scope : Scope} {statement : Axiom}
    (read : Reads checks (do
      match ← Reading.untilClose (classExpression scope) [] scope.limit with
      | [sub, super] => pure (.ok (.subClassOf sub super))
      | classes => pure (.error (.wrongOperandCount classes.length .subClassOf 2)))
      session (.ok statement : Counted) after) (here : session.At input) :
    ReadAxiom scope.prefixes .subClassOf statement input after := by
  obtain ⟨classes, between, core, read⟩ := Reads.bind_iff.mp read
  obtain ⟨⟨rest, sequence, afterAt⟩, held⟩ :=
    untilClose_recognized (classExpression_recognized scope) scope.limit core here
  split at read
  · next sub super =>
    obtain ⟨same, rfl⟩ := Reads.pure_iff.mp read
    obtain rfl := Except.ok.inj same
    cases sequence with
    | cons spelled others =>
      exact ⟨rfl, ⟨rest, .subClassOf spelled (sequence_single others), afterAt⟩,
        by simpa [Axiom.references] using held⟩
  · obtain ⟨same, -⟩ := Reads.pure_iff.mp read
    simp at same

theorem operands_recognized {scope : Scope} {keyword : Keyword} {reading : Reading Counted}
    {statement : Axiom} (found : operands scope keyword = some reading)
    (read : Reads checks reading session (.ok statement) after) (here : session.At input) :
    ReadAxiom scope.prefixes keyword statement input after := by
  have expression : Recognizes checks _ _ _ := classExpression_recognized scope
  have property : Recognizes checks _ _ _ := objectProperty_recognized scope
  have dataProperty : Recognizes checks _ _ _ := dataProperty_recognized scope
  have individual : Recognizes checks _ _ _ := individual_recognized scope
  have noteProperty : Recognizes checks _ _ _ := annotationProperty_recognized scope
  have named : Recognizes checks _ _ _ := name_recognized scope
  -- Each keyword of an axiom has its own reading, and `split` takes them in the order of the table.
  unfold operands at found
  split at found <;> simp only [Option.some.injEq, reduceCtorEq] at found <;> subst found
  · exact subClassOf_spelled read here
  · exact .ofSeveral expression read here .equivalentClasses
  · exact .ofSeveral expression read here .disjointClasses
  · exact .ofPair property property read here .subObjectPropertyOf
  · exact .ofPair property property read here .inverseObjectProperties
  · exact .ofPair property expression read here .objectPropertyDomain
  · exact .ofPair property expression read here .objectPropertyRange
  · exact .ofOne property read here .objectCharacteristic
  · exact .ofPair dataProperty dataProperty read here .subDataPropertyOf
  · exact .ofPair dataProperty expression read here .dataPropertyDomain
  · exact .ofPair dataProperty (dataRange_recognized scope) read here .dataPropertyRange
  · exact .ofOne dataProperty read here .functionalDataProperty
  · exact .ofPair expression individual read here .classAssertion
  · exact .ofTriple (property.within _) (individual.within _) (individual.within _) read here
      .objectPropertyAssertion
  · exact .ofTriple (property.within _) (individual.within _) (individual.within _) read here
      .negativeObjectPropertyAssertion
  · exact .ofTriple (dataProperty.within _) (individual.within _)
      ((literal_recognized scope).within _) read here .dataPropertyAssertion
  · exact .ofSeveral individual read here .differentIndividuals
  · exact .ofTriple (noteProperty.within _) ((annotationSubject_recognized scope).within _)
      ((annotationValue_recognized scope).within _) read here .annotationAssertion
  · exact .ofPair noteProperty named read here .annotationPropertyDomain
  · exact .ofPair noteProperty named read here .annotationPropertyRange

theorem assertion_spelled {scope : Scope} {first : Scanned} {statement : Statement}
    (read : Reads checks (assertion scope first) session statement after)
    (here : session.At input) :
    Sentence scope.prefixes statement input after.stream.ahead ∧
      ∀ declaration ∈ statement.references, after.store.Holds declaration := by
  unfold assertion at read
  split at read
  · split at read
    · next found =>
      obtain ⟨⟨notes, counted⟩, ended, enclosed, read⟩ := Reads.bind_iff.mp read
      dsimp only at read
      split at read
      · next statement =>
        obtain ⟨rfl, rfl⟩ := Reads.pure_iff.mp read
        obtain ⟨start, opened, inner, opens, openedAt, inside, grown, closes⟩ :=
          enclosed_parts enclosed here
        obtain ⟨_, between, noted, inside⟩ := Reads.bind_iff.mp inside
        obtain ⟨_, inner, core, inside⟩ := Reads.bind_iff.mp inside
        obtain ⟨same, rfl⟩ := Reads.pure_iff.mp inside
        obtain ⟨rfl, rfl⟩ := Prod.mk.inj same
        obtain ⟨⟨middle, sequence, there⟩, held⟩ := annotations_spelled noted openedAt
        obtain ⟨rfl, ⟨rest, spelled, innerAt⟩, heldOperands⟩ := operands_recognized found core there
        exact ⟨.assertion opens sequence spelled (closes innerAt),
          holds_append held heldOperands core.grows grown⟩
      · simp at read
    · simp at read
  · simp at read

/-! ## Statements -/

theorem declaredKind_mark {kind : EntityKind} (read : Reads checks declaredKind session kind after)
    (here : session.At input) : Mark (.keyword (.entity kind)) input after.stream.ahead := by
  obtain ⟨next, between, scan, read⟩ := Reads.bind_iff.mp read
  split at read
  · next token =>
    obtain ⟨rfl, rfl⟩ := Reads.pure_iff.mp read
    exact ⟨_, scan.takes_token here token (by simp)⟩
  · simp at read

theorem declaration_spelled {scope : Scope} {statement : Statement}
    (read : Reads checks (declaration scope) session statement after) (here : session.At input) :
    Sentence scope.prefixes statement input after.stream.ahead ∧
      ∀ declaration ∈ statement.references, after.store.Holds declaration := by
  obtain ⟨start, opened, inner, opens, openedAt, inside, grown, closes⟩ := enclosed_parts read here
  obtain ⟨notes, noted, annotated, inside⟩ := Reads.bind_iff.mp inside
  obtain ⟨kind, kinded, kindRead, inside⟩ := Reads.bind_iff.mp inside
  obtain ⟨_, entered, paren, inside⟩ := Reads.bind_iff.mp inside
  obtain ⟨⟨iri, position⟩, between, named, inside⟩ := Reads.bind_iff.mp inside
  obtain ⟨_, left, close, inside⟩ := Reads.bind_iff.mp inside
  obtain ⟨rfl, rfl⟩ := Reads.pure_iff.mp inside
  obtain ⟨⟨middle, sequence, there⟩, held⟩ := annotations_spelled annotated openedAt
  have kindedAt := kindRead.atItself there
  have enteredAt := paren.atItself kindedAt
  have betweenAt := named.atItself enteredAt
  refine ⟨.declaration opens sequence
    ⟨_, declaredKind_mark kindRead there, expect_mark paren kindedAt (by simp)⟩
    (name_spelled named enteredAt) (expect_mark close betweenAt (by simp))
    (closes (close.atItself betweenAt)), ?_⟩
  have later : noted.store.Grows after.store :=
    kindRead.grows.trans (paren.grows.trans (named.grows.trans (close.grows.trans grown)))
  exact later.holds held

/-- What comes next in an ontology: a statement, or the closing parenthesis. -/
theorem statement?_spelled {scope : Scope} {found : Option Statement}
    (read : Reads checks (statement? scope) session found after) (here : session.At input) :
    match found with
    | none => Closes input after.stream.ahead
    | some statement => Sentence scope.prefixes statement input after.stream.ahead ∧
        ∀ declaration ∈ statement.references, after.store.Holds declaration := by
  obtain ⟨next, between, scan, read⟩ := Reads.bind_iff.mp read
  split at read
  · next closing =>
    obtain ⟨rfl, rfl⟩ := Reads.pure_iff.mp read
    exact ⟨_, scan.takes_token here closing (by simp)⟩
  · obtain ⟨_, back, unscan, read⟩ := Reads.bind_iff.mp read
    have there := scan.unscan_at unscan here
    split at read
    · obtain ⟨statement, core, rfl⟩ := Reads.map_iff.mp read
      exact declaration_spelled core there
    · obtain ⟨statement, core, rfl⟩ := Reads.map_iff.mp read
      exact assertion_spelled core there

end OwlFunctional.Recognition
