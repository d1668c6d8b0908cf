import OwlFunctional.Grammar.Statement
import OwlFunctional.Proofs.References

/-! What the constructs of the grammar are composed of.

Names, short names, literals and numbers are read token by token. Every other construct reads such
leaves, looks at the next token, finds entities, and encloses what it reads in parentheses. A
property of all constructs is therefore shown for these steps only.
-/

set_option autoImplicit false

namespace OwlFunctional

open Reading Grammar

/-- Readings that are composed of leaves, of look-ups of names that are not reserved, and of
constructs in parentheses. -/
inductive Composed : {α : Type} → Reading α → Prop where
  | done {α : Type} (value : α) : Composed (pure value : Reading α)
  | failed {α : Type} (error : SyntaxError) : Composed (.fail error : Reading α)
  | bind {α β : Type} {reading : Reading β} {next : β → Reading α} : Composed reading →
      (∀ value, Composed (next value)) → Composed (reading >>= next)
  | within {α : Type} {reading : Reading α} (context : Context) : Composed reading →
      Composed (reading.within context)
  | peek : Composed peek
  | here : Composed here
  | name (scope : Scope) : Composed (name scope)
  | shortName : Composed shortName
  | literal (scope : Scope) : Composed (literal scope)
  | cardinality : Composed cardinality
  | declaredKind : Composed declaredKind
  | find {kind : EntityKind} {iri : Iri} (unknown : SyntaxError) :
      Declaration.Usable ⟨kind, iri⟩ → Composed (find kind iri unknown)
  | enclosed {α : Type} {inside : Reading α} (keyword : Keyword) : Composed inside →
      Composed (enclosed keyword inside)
  | parenthesised {α β : Type} {inside : Reading β} {next : β → Reading α} : Composed inside →
      (∀ value, Composed (next value)) →
      Composed (do
        expect .openParen
        let value ← inside
        expect .closeParen
        next value)

namespace Composed

variable {α β : Type} {scope : Scope}

theorem map {reading : Reading β} (make : β → α) (composed : Composed reading) :
    Composed (make <$> reading) := .bind composed fun value => .done (make value)

theorem failAt (position : Position) (cause : Cause) :
    Composed (Reading.failAt position cause : Reading α) := .failed _

theorem failOn (scanned : Scanned) (cause : Lexeme → Cause) :
    Composed (Reading.failOn scanned cause : Reading α) := .failed _

theorem limitReached : Composed (Reading.limitReached : Reading α) :=
  .bind .here fun _ => .failed _

theorem untilClose {item : Reading α} (composed : Composed item) (read : List α) (limit : Nat) :
    Composed (Reading.untilClose item read limit) := by
  induction limit generalizing read with
  | zero => exact limitReached
  | succ limit ih =>
    refine .bind .peek fun next => ?_
    split
    · exact .done _
    · exact .bind .peek fun again => failOn again _
    · exact .bind composed fun value => ih (value :: read)

/-! ## Names of entities -/

/-- A name of the language is refused before it is looked up. -/
theorem declared (kind : EntityKind) (term : OwlTerm) (iri : Iri) (position : Position) :
    Composed (Grammar.declared kind term iri position) := by
  unfold Grammar.declared
  split
  · exact failAt _ _
  · next free => exact .find _ (.inr free)

/-- A name that is built in as one of two things, or else one of a declared entity. -/
theorem namedBy {first second : Iri} {top bottom : α} {kind : EntityKind}
    (make : Entity kind → α) (term : OwlTerm) :
    Composed (do
      let (iri, position) ← Grammar.name scope
      if iri = first then pure top
      else if iri = second then pure bottom
      else make <$> Grammar.declared kind term iri position) := by
  refine .bind (.name scope) fun named => ?_
  dsimp only
  split
  · exact .done _
  · split
    · exact .done _
    · exact (declared ..).map make

theorem startsAnonymous : Composed startsAnonymous := .bind .peek fun _ => .done _

theorem anonymous : Composed anonymous := by
  refine .bind .shortName fun parts => ?_
  dsimp only
  split
  · exact .done _
  · exact .bind .here fun _ => failAt _ _

theorem individual (scope : Scope) : Composed (individual scope) := by
  refine .bind startsAnonymous fun blank => ?_
  split
  · exact .bind anonymous fun _ => .done _
  · exact .bind (.within _ (.name scope)) fun _ => .bind (declared ..) fun _ => .done _

theorem objectPropertyWithin (scope : Scope) (limit : Nat) :
    Composed (objectPropertyWithin scope limit) := by
  induction limit with
  | zero => exact limitReached
  | succ limit ih =>
    refine .bind .peek fun next => ?_
    split
    · refine .enclosed _ (.bind ih fun inner => ?_)
      split
      · exact .done _
      · exact .bind .here fun _ => failAt _ _
    · exact namedBy _ _

theorem objectProperty (scope : Scope) : Composed (objectProperty scope) :=
  objectPropertyWithin scope scope.limit

theorem dataProperty (scope : Scope) : Composed (dataProperty scope) := namedBy _ _

/-- A datatype is looked up under any name that is not built in. -/
theorem datatype (scope : Scope) : Composed (datatype scope) := by
  refine .bind (.name scope) fun named => ?_
  dsimp only
  split
  · exact .done _
  · exact .bind (.find _ (.inl rfl)) fun _ => .done _

/-! ## Expressions -/

theorem facet (scope : Scope) : Composed (facet scope) := by
  refine .bind .peek fun next => ?_
  split
  · refine .bind (.name scope) fun named => ?_
    dsimp only
    split
    · exact .done _
    · exact failAt _ _
  · exact failAt _ _

theorem facets (scope : Scope) (read : List FacetRestriction) (limit : Nat) :
    Composed (facets scope read limit) := by
  induction limit generalizing read with
  | zero => exact limitReached
  | succ limit ih =>
    refine .bind .peek fun next => ?_
    split
    · exact .done _
    · refine .bind (.within _ ?_) fun pair => ih (pair :: read)
      exact .bind (facet scope) fun _ => .bind (.literal scope) fun _ => .done _

theorem checkCount (keyword : Keyword) (least : Nat) (position : Position) (operands : List α) :
    Composed (checkCount keyword least position operands) := by
  unfold Grammar.checkCount
  split
  · exact failAt _ _
  · exact .done _

theorem onlyOperand (keyword : Keyword) (position : Position) (operands : List α) :
    Composed (onlyOperand keyword position operands) := by
  unfold Grammar.onlyOperand
  split
  · exact .done _
  · exact failAt _ _

theorem optionalOperand {operand : Reading α} (composed : Composed operand) :
    Composed (optionalOperand operand) := by
  refine .bind .peek fun next => ?_
  split
  · exact .done _
  · exact composed.map some

/-- A construct with any number of operands, which is then made of them. -/
theorem several {item : Reading β} (keyword : Keyword) (composed : Composed item)
    {make : List β → Reading α} (made : ∀ operands, Composed (make operands)) :
    Composed (Grammar.enclosed keyword (Reading.untilClose item [] scope.limit) >>= make) :=
  .bind (.enclosed _ (untilClose composed [] scope.limit)) made

theorem dataRangeWithin (scope : Scope) (limit : Nat) : Composed (dataRangeWithin scope limit) := by
  induction limit with
  | zero => exact limitReached
  | succ limit ih =>
    refine .bind .peek fun next => ?_
    split
    iterate 3 exact .bind (.within _ (datatype scope)) fun _ => .done _
    · refine .bind (.enclosed _ (.bind (.within _ (datatype scope)) fun _ =>
        .bind (facets scope [] scope.limit) fun _ => .done _)) fun pair => ?_
      exact .bind (checkCount ..) fun _ => .done _
    · exact several _ ih fun _ => (checkCount ..).map _
    · exact several _ ih fun _ => (onlyOperand ..).map _
    · exact several _ (.literal scope) fun _ => (checkCount ..).map _
    · exact failOn _ _

theorem dataRange (scope : Scope) : Composed (dataRange scope) := dataRangeWithin scope scope.limit

theorem pair {γ : Type} {first : Reading α} {second : Reading β} (make : α → β → γ)
    (left : Composed first) (right : Composed second) :
    Composed (do pure (make (← first) (← second))) :=
  .bind left fun _ => .bind right fun _ => .done _

theorem classExpressionWithin (scope : Scope) (limit : Nat) :
    Composed (classExpressionWithin scope limit) := by
  induction limit with
  | zero => exact limitReached
  | succ limit ih =>
    refine .bind .peek fun next => ?_
    split
    iterate 3 exact namedBy _ _
    · exact several _ ih fun _ => (checkCount ..).map _
    · exact several _ ih fun _ => (onlyOperand ..).map _
    · exact several _ (individual scope) fun _ => (checkCount ..).map _
    · exact .enclosed _ (pair _ (objectProperty scope) ih)
    · exact .enclosed _ (pair _ (objectProperty scope) (individual scope))
    · exact .enclosed _ (.bind (objectProperty scope) fun _ => .done _)
    · refine .enclosed _ (.bind .cardinality fun _ => .bind (objectProperty scope) fun _ =>
        .bind (optionalOperand ih) fun filler => ?_)
      split <;> exact .done _
    · exact .enclosed _ (pair _ (dataProperty scope) (dataRange scope))
    · exact .enclosed _ (pair _ (.within _ (dataProperty scope)) (.within _ (.literal scope)))
    · refine .enclosed _ (.bind .cardinality fun _ => .bind (dataProperty scope) fun _ =>
        .bind (optionalOperand (.within _ (dataRange scope))) fun range => ?_)
      split <;> exact .done _
    · exact failOn _ _

theorem classExpression (scope : Scope) : Composed (classExpression scope) :=
  classExpressionWithin scope scope.limit

/-! ## Statements -/

theorem annotationProperty (scope : Scope) : Composed (annotationProperty scope) := by
  refine .bind (.name scope) fun named => ?_
  dsimp only
  split
  · exact .done _
  · exact declared ..

theorem annotationSubject (scope : Scope) : Composed (annotationSubject scope) := by
  refine .bind startsAnonymous fun blank => ?_
  split
  · exact .bind anonymous fun _ => .done _
  · exact .bind (.within _ (.name scope)) fun _ => .done _

theorem annotationValue (scope : Scope) : Composed (annotationValue scope) := by
  refine .bind .peek fun next => ?_
  split
  · exact .bind (.literal scope) fun _ => .done _
  · refine .bind startsAnonymous fun blank => ?_
    split
    · exact .bind anonymous fun _ => .done _
    · exact .bind (.within _ (.name scope)) fun _ => .done _

theorem annotationsAfter (scope : Scope) (read : List Annotation) (limit : Nat) :
    Composed (annotationsAfter scope read limit) := by
  induction limit generalizing read with
  | zero => exact limitReached
  | succ limit ih =>
    refine .bind .peek fun next => ?_
    split
    · refine .bind (.within _ (.enclosed _ ?_)) fun note => ih (note :: read)
      exact pair _ (.within _ (annotationProperty scope)) (.within _ (annotationValue scope))
    · exact .done _

theorem annotations (scope : Scope) : Composed (annotations scope) :=
  annotationsAfter scope [] scope.limit

theorem declaration (scope : Scope) : Composed (declaration scope) :=
  .enclosed _ (.bind (annotations scope) fun _ => .bind .declaredKind fun _ =>
    .parenthesised (.name scope) fun _ => .done _)

theorem triple {γ δ : Type} {first : Reading α} {second : Reading β} {third : Reading γ}
    (make : α → β → γ → δ) (left : Composed first) (middle : Composed second)
    (right : Composed third) {one two three : Context} :
    Composed (do
      pure (make (← first.within one) (← second.within two) (← third.within three))) :=
  .bind (.within _ left) fun _ => .bind (.within _ middle) fun _ =>
    .bind (.within _ right) fun _ => .done _

theorem operands {scope : Scope} {keyword : Keyword} {reading : Reading Counted}
    (found : operands scope keyword = some reading) : Composed reading := by
  have expression := classExpression scope
  have property := objectProperty scope
  have valued := dataProperty scope
  have member := individual scope
  have noted := annotationProperty scope
  unfold Grammar.operands at found
  split at found <;> simp only [Option.some.injEq, reduceCtorEq] at found <;> subst found
  · refine .bind (untilClose expression [] scope.limit) fun classes => ?_
    split <;> exact .done _
  · exact .bind (untilClose expression [] scope.limit) fun _ => .done _
  · exact .bind (untilClose expression [] scope.limit) fun _ => .done _
  · exact pair _ property property
  · exact pair _ property property
  · exact pair _ property expression
  · exact pair _ property expression
  · exact .bind property fun _ => .done _
  · exact pair _ valued valued
  · exact pair _ valued expression
  · exact pair _ valued (dataRange scope)
  · exact .bind valued fun _ => .done _
  · exact pair _ expression member
  · exact triple _ property member member
  · exact triple _ property member member
  · exact triple _ valued member (.literal scope)
  · exact .bind (untilClose member [] scope.limit) fun _ => .done _
  · exact triple _ noted (annotationSubject scope) (annotationValue scope)
  · exact .bind noted fun _ => .bind (.name scope) fun _ => .done _
  · exact .bind noted fun _ => .bind (.name scope) fun _ => .done _

theorem assertion (scope : Scope) (first : Scanned) : Composed (assertion scope first) := by
  unfold Grammar.assertion
  split
  · split
    · next reading found =>
      refine .bind (.enclosed _ (pair _ (annotations scope) (operands found))) fun parts => ?_
      dsimp only
      split
      · exact .done _
      · exact failAt _ _
    · exact failOn _ _
  · exact failOn _ _

end Composed

end OwlFunctional
