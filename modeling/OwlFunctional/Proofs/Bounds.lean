import OwlFunctional.Proofs.Advance

/-! Bounds that are wide enough are never met.

A bound is spent by one where something is repeated or nested, and a token is read each time. So a
reading that may repeat and nest as often as there are lexemes ahead comes to its end before.
-/

set_option autoImplicit false

namespace OwlFunctional

open Grammar

variable {α β : Type}

/-- Where fewer lexemes are ahead than the given number, no run of the reading meets a bound. -/
structure Bounded (need : Nat) (reading : Reading α) : Prop where
  unmet : ∀ {σ : Type} [Store σ] {checks : Checks} {session after : Session σ}
    {error : SyntaxError}, session.stream.ahead.length < need →
    reading.run (Session.reader checks) session = (.error error, after) →
    error.cause ≠ .limitReached

namespace Bounded

variable {need : Nat}

theorem fewer {more : Nat} {reading : Reading α} (bounded : Bounded more reading)
    (le : need ≤ more) : Bounded need reading :=
  ⟨fun short failed => bounded.unmet (Nat.lt_of_lt_of_le short le) failed⟩

/-- There is no shorter input than the empty one. -/
theorem zero (reading : Reading α) : Bounded 0 reading := ⟨fun short => absurd short (by omega)⟩

theorem done (value : α) : Bounded need (pure value : Reading α) := by
  constructor
  intro σ _ checks session after error short failed
  simp at failed

theorem failed {error : SyntaxError} (other : error.cause ≠ .limitReached) :
    Bounded need (.fail error : Reading α) := by
  constructor
  intro σ _ checks session after found short failed
  obtain ⟨same, -⟩ := Prod.mk.inj failed
  rwa [← Except.error.inj same]

theorem failAt (position : Position) {cause : Cause} (other : cause ≠ .limitReached) :
    Bounded need (Reading.failAt position cause : Reading α) := failed other

theorem failOn (scanned : Scanned) {cause : Lexeme → Cause}
    (other : cause scanned.lexeme ≠ .limitReached) :
    Bounded need (Reading.failOn scanned cause : Reading α) := failed other

theorem of_parts {first : Reading β} {next : β → Reading α} (head : Bounded need first)
    (tail : ∀ {σ : Type} [Store σ] {checks : Checks} {session between after : Session σ}
      {value : β} {error : SyntaxError}, session.stream.ahead.length < need →
      Reads checks first session value between →
      (next value).run (Session.reader checks) between = (.error error, after) →
      error.cause ≠ .limitReached) :
    Bounded need (first >>= next) := by
  constructor
  intro σ _ checks session after error short failed
  rw [Program.run_bind] at failed
  rcases read : first.run (Session.reader checks) session with ⟨found | value, between⟩
  · rw [read] at failed
    obtain ⟨same, -⟩ := Prod.mk.inj failed
    rw [← Except.error.inj same]
    exact head.unmet short read
  · rw [read] at failed
    exact tail short read failed

theorem bind {first : Reading β} {next : β → Reading α} (forward : Forward first)
    (head : Bounded need first) (tail : ∀ value, Bounded need (next value)) :
    Bounded need (first >>= next) := by
  apply head.of_parts
  intro σ _ checks session between after value error short read failed
  have shorter := (forward.suffix read).length_le
  exact (tail value).unmet (by omega) failed

theorem onward {first : Reading β} {next : β → Reading α} (advances : Advances first)
    (head : Bounded (need + 1) first) (tail : ∀ value, Bounded need (next value)) :
    Bounded (need + 1) (first >>= next) := by
  apply head.of_parts
  intro σ _ checks session between after value error short read failed
  have shorter := (advances.passes read).shorter
  exact (tail value).unmet (by omega) failed

/-- What has no bounds can come after anything. -/
theorem thenFree {first : Reading β} {next : β → Reading α} (head : Bounded need first)
    (tail : ∀ value need, Bounded need (next value)) : Bounded need (first >>= next) := by
  apply head.of_parts
  intro σ _ checks session between after value error short read failed
  exact (tail value _).unmet (Nat.lt_succ_self _) failed

theorem map {reading : Reading β} (make : β → α) (bounded : Bounded need reading) :
    Bounded need (make <$> reading) := bounded.thenFree fun value _ => done (make value)

theorem within {reading : Reading α} (context : Context) (bounded : Bounded need reading) :
    Bounded need (reading.within context) := by
  constructor
  intro σ _ checks session after error short failed
  rw [Program.run_within] at failed
  rcases read : reading.run (Session.reader checks) session with ⟨found | value, between⟩
  · rw [read] at failed
    obtain ⟨same, -⟩ := Prod.mk.inj failed
    rw [← Except.error.inj same]
    have inner : found.cause ≠ .limitReached := bounded.unmet short read
    exact inner
  · simp [read] at failed

theorem asked (query : Query) {refused : Signature.Refusal query → SyntaxError}
    (other : ∀ reason, (refused reason).cause ≠ .limitReached) :
    Bounded need (.ask query refused .done : Reading (Signature.Reply query)) := by
  constructor
  intro σ _ checks session after error short failed
  simp only [Program.run] at failed
  split at failed
  · simp at failed
  · obtain ⟨same, -⟩ := Prod.mk.inj failed
    rw [← Except.error.inj same]
    exact other _

theorem token : Bounded need Reading.token := asked .token nofun

theorem peek : Bounded need Reading.peek := asked .peek nofun

theorem unscan : Bounded need Reading.unscan := asked .unscan nofun

theorem here : Bounded need Reading.here := asked .here nofun

theorem subtag : Bounded need Reading.subtag := asked .subtag nofun

theorem report (event : Event) : Bounded need (Reading.report event) :=
  asked (.report event) nofun

theorem find (kind : EntityKind) (iri : Iri) {unknown : SyntaxError}
    (other : unknown.cause ≠ .limitReached) : Bounded need (Reading.find kind iri unknown) :=
  asked (.find kind iri) fun _ => other

/-- A token that is put back at once was ahead. -/
theorem tokenThen {next : Scanned → Reading α}
    (tail : ∀ scanned, Bounded need (next scanned) ∨
      ∃ left : Reading α, next scanned = (Reading.unscan >>= fun _ => left) ∧
        Bounded need left) :
    Bounded need (Reading.token >>= next) := by
  apply of_parts token
  intro σ _ checks session between after scanned error short scan failed
  rcases tail scanned with kept | ⟨left, same, given⟩
  · have shorter := (Forward.token.suffix scan).length_le
    exact kept.unmet (by omega) failed
  · -- What is left is read from behind the step back, where no more is ahead than there was.
    have back : Reads checks Reading.unscan between () _ := Reads.unscan_iff.mpr rfl
    have shorter := (scan.putBack_suffix back).length_le
    unfold Reads at back
    rw [same, Program.run_bind, back] at failed
    exact given.unmet (by omega) failed

theorem expect (expected : Token) : Bounded need (Reading.expect expected) := by
  apply token.thenFree
  intro next need
  split
  · exact done ()
  · exact failOn _ (by simp)

theorem expectAll (expected : List Token) : Bounded need (Reading.expectAll expected) := by
  induction expected with
  | nil => exact done ()
  | cons first rest ih => exact bind (.expect first) (expect first) fun _ => ih

theorem accept (accepted : Token) : Bounded need (Reading.accept accepted) := by
  apply token.thenFree
  intro next need
  split
  · exact done true
  · exact unscan.thenFree fun _ _ => done false

/-- A keyword and a parenthesis come before what stands in parentheses. -/
theorem enclosed (keyword : Keyword) {inside : Reading α} (bounded : Bounded need inside) :
    Bounded (need + 1) (Grammar.enclosed keyword inside) := by
  have opening : Advances (Reading.expectAll [.keyword keyword, .openParen]) := by
    constructor
    intro σ _ checks session after value read
    obtain ⟨_, named, word, read⟩ := Reads.bind_iff.mp read
    exact (word.expect_passes (by simp)).on ((Forward.expectAll _).suffix read)
  apply onward opening (expectAll _)
  intro _
  apply bounded.thenFree
  intro value need
  exact (expect _).thenFree fun _ _ => done value

/-- A loop over items needs no more than its items, since each item reads a token. -/
theorem untilClose {item : Reading α} (advances : Advances item) (bounded : Bounded need item)
    (read : List α) {limit : Nat} (enough : need ≤ limit) :
    Bounded need (Reading.untilClose item read limit) := by
  -- The bound of the loop and what the input needs go down together.
  induction limit generalizing need read with
  | zero =>
    obtain rfl : need = 0 := by omega
    exact zero _
  | succ limit ih =>
    cases need with
    | zero => exact zero _
    | succ need =>
      apply bind .peek peek
      intro next
      split
      · exact done _
      · exact peek.thenFree fun again _ => failOn again (by simp)
      · exact onward advances bounded fun value =>
          ih (bounded.fewer (by omega)) (value :: read) (by omega)

end Bounded

open Bounded

variable {scope : Scope} {need : Nat}

/-! ## Names and literals -/

theorem bracketedIri_bounded (scanned : Scanned) : Bounded need (bracketedIri scanned) := by
  unfold bracketedIri
  split
  · exact .failAt _ (by simp)
  · exact thenFree (.asked (.checkIri _) (by simp [SyntaxError.found])) fun _ _ => .done _

theorem localName_bounded (label : String) : Bounded need (localName label) := by
  apply token.thenFree
  intro name need
  split
  · exact .done _
  · exact .failOn _ (by simp)

theorem shortName_bounded : Bounded need shortName := by
  apply token.thenFree
  intro first need
  dsimp only
  split
  · exact (expect _).thenFree fun _ _ => localName_bounded _
  · exact localName_bounded _
  · exact thenFree (.failOn _ (by simp)) fun _ _ => localName_bounded _

theorem resolve_bounded (label name : String) (position : Position) :
    Bounded need (resolve scope label name position) := by
  unfold resolve
  split
  · exact .failAt _ (by simp)
  · exact thenFree (.report _) fun _ _ => .done _

theorem labelledName_bounded (position : Position) : Bounded need (labelledName scope position) :=
  shortName_bounded.thenFree fun _ _ => (resolve_bounded ..).thenFree fun _ _ => .done _

theorem name_bounded : Bounded need (name scope) := by
  apply peek.thenFree
  intro next need
  split
  · exact token.thenFree fun _ _ => (bracketedIri_bounded next).thenFree fun _ _ => .done _
  · exact labelledName_bounded _
  · exact labelledName_bounded _
  · exact .failOn _ (by simp)

theorem declared_bounded (kind : EntityKind) (term : OwlTerm) (iri : Iri) (position : Position) :
    Bounded need (declared kind term iri position) := by
  unfold declared
  split
  · exact .failAt _ (by simp)
  · exact .find _ _ (by simp [SyntaxError.found])

/-- A name that is built in as one of two things, or else one of a declared entity. -/
theorem namedBy_bounded {first second : Iri} {top bottom : α} {kind : EntityKind}
    (make : Entity kind → α) (term : OwlTerm) :
    Bounded need (do
      let (iri, position) ← name scope
      if iri = first then pure top
      else if iri = second then pure bottom
      else make <$> declared kind term iri position) := by
  apply name_bounded.thenFree
  intro named need
  dsimp only
  split
  · exact .done _
  · split
    · exact .done _
    · exact .map make (declared_bounded ..)

theorem startsAnonymous_bounded : Bounded need startsAnonymous := peek.thenFree fun _ _ => .done _

theorem anonymous_bounded : Bounded need anonymous := by
  apply shortName_bounded.thenFree
  intro parts need
  dsimp only
  split
  · exact .done _
  · exact Bounded.here.thenFree fun _ _ => .failAt _ (by simp)

theorem individual_bounded : Bounded need (individual scope) := by
  apply startsAnonymous_bounded.thenFree
  intro blank need
  split
  · exact anonymous_bounded.thenFree fun _ _ => .done _
  · exact (name_bounded.within _).thenFree fun _ _ =>
      (declared_bounded ..).thenFree fun _ _ => .done _

/-- Each piece of a language tag is a lexeme. -/
theorem languageRest_bounded (tag : String) (limit : Nat) :
    Bounded limit (languageRest tag limit) := by
  induction limit generalizing tag with
  | zero => exact .zero _
  | succ limit ih =>
    apply Bounded.of_parts .subtag
    intro σ _ checks session between after found error short read failed
    split at failed
    · next text =>
      obtain ⟨piece, rfl⟩ := Reads.subtag_iff.mp read
      have shorter := (Stream.subtag_passes piece).shorter
      refine (ih _).unmet ?_ failed
      dsimp only
      omega
    · exact (Bounded.failOn _ (by simp)).unmet (Nat.lt_succ_self _) failed
    · refine Bounded.unmet ?_ (Nat.lt_succ_self _) failed
      exact thenFree (.asked (.checkTag _) (by simp [SyntaxError.found])) fun _ _ => .done _

theorem language_bounded (scope : Scope) : Bounded scope.limit (language scope) := by
  apply Bounded.bind (.accept _) (.accept _)
  intro accepted
  split
  · apply Bounded.bind .token .token
    intro first
    split
    · exact .map _ (languageRest_bounded _ _)
    · exact .failOn _ (by simp)
  · exact .done _

theorem datatypeSuffix_bounded : Bounded need (datatypeSuffix scope) := by
  apply (accept _).thenFree
  intro accepted need
  split
  · exact name_bounded.thenFree fun _ _ => .done _
  · exact .done _

theorem typed_bounded (position : Position) (kind : LiteralKind) (value : String)
    (language : Option String) : Bounded need (typed scope position kind value language) := by
  apply (datatypeSuffix_bounded.within _).thenFree
  intro suffix need
  split
  · exact .done _
  · split
    · split
      · exact .done _
      · exact .failed (by simp [SyntaxError.found, SyntaxError.within])
    · exact .done _

theorem literal_bounded (scope : Scope) : Bounded scope.limit (literal scope) := by
  apply Bounded.bind .token .token
  intro first
  split
  · exact .done _
  · exact .failed (by simp [SyntaxError.found, SyntaxError.within])
  · dsimp only
    split
    · exact ((language_bounded scope).within _).thenFree fun _ _ => typed_bounded ..
    · exact (Bounded.done _).thenFree fun _ _ => typed_bounded ..

/-! ## Expressions -/

theorem objectPropertyWithin_bounded (scope : Scope) (limit : Nat) :
    Bounded limit (objectPropertyWithin scope limit) := by
  induction limit with
  | zero => exact .zero _
  | succ limit ih =>
    apply Bounded.bind .peek .peek
    intro next
    split
    · apply Bounded.enclosed
      apply ih.thenFree
      intro inner need
      split
      · exact .done _
      · exact Bounded.here.thenFree fun _ _ => .failAt _ (by simp)
    · exact namedBy_bounded _ _

theorem objectProperty_bounded (scope : Scope) : Bounded scope.limit (objectProperty scope) :=
  objectPropertyWithin_bounded scope scope.limit

theorem dataProperty_bounded : Bounded need (dataProperty scope) := namedBy_bounded _ _

theorem datatype_bounded : Bounded need (datatype scope) := by
  apply name_bounded.thenFree
  intro named need
  dsimp only
  split
  · exact .done _
  · exact thenFree (.find _ _ (by simp [SyntaxError.found])) fun _ _ => .done _

theorem facet_bounded : Bounded need (facet scope) := by
  apply peek.thenFree
  intro next need
  split
  · apply name_bounded.thenFree
    intro named need
    dsimp only
    split
    · exact .done _
    · exact .failAt _ (by simp)
  · exact .failAt _ (by simp)

theorem facetPair_bounded (scope : Scope) : Bounded scope.limit (facetPair scope) :=
  .bind (Composed.facet scope).forward facet_bounded fun _ =>
    (literal_bounded scope).thenFree fun _ _ => .done _

theorem facets_bounded (scope : Scope) (read : List FacetRestriction) {limit : Nat}
    (within : limit ≤ scope.limit) : Bounded limit (facets scope read limit) := by
  induction limit generalizing read with
  | zero => exact .zero _
  | succ limit ih =>
    apply Bounded.bind .peek .peek
    intro next
    split
    · exact .done _
    · have pair := ((facetPair_bounded scope).fewer within).within (.facetNumber (read.length + 1))
      exact .onward ((facetPair_advances scope).within _) pair fun found =>
        ih (found :: read) (by omega)

theorem checkCount_bounded (keyword : Keyword) (least : Nat) (position : Position)
    (operands : List α) : Bounded need (checkCount keyword least position operands) := by
  unfold checkCount
  split
  · exact .failAt _ (by simp)
  · exact .done _

theorem onlyOperand_bounded (keyword : Keyword) (position : Position) (operands : List α) :
    Bounded need (onlyOperand keyword position operands) := by
  unfold onlyOperand
  split
  · exact .done _
  · exact .failAt _ (by simp)

theorem cardinality_bounded : Bounded need cardinality := by
  apply token.thenFree
  intro next need
  split
  · split
    · exact .done _
    · exact .failAt _ (by simp)
  · exact .failAt _ (by simp)

theorem optionalOperand_bounded {operand : Reading α} (bounded : Bounded need operand) :
    Bounded need (optionalOperand operand) := by
  apply Bounded.bind .peek .peek
  intro next
  split
  · exact .done _
  · exact bounded.map some

/-- A construct with any number of operands, which is then made of them. -/
theorem several_bounded {item : Reading β} {make : List β → Reading α} {limit : Nat}
    (keyword : Keyword) (advances : Advances item) (bounded : Bounded need item)
    (enough : need ≤ limit) (made : ∀ operands need, Bounded need (make operands)) :
    Bounded (need + 1) (enclosed keyword (Reading.untilClose item [] limit) >>= make) :=
  thenFree (.enclosed keyword (bounded.untilClose advances [] enough)) made

/-- Two operands, one after the other. -/
theorem pair_bounded {γ : Type} {first : Reading α} {second : Reading β} (make : α → β → γ)
    (forward : Forward first) (left : Bounded need first) (right : Bounded need second) :
    Bounded need (do pure (make (← first) (← second))) :=
  .bind forward left fun _ => right.thenFree fun _ _ => .done _

theorem dataRangeWithin_bounded (scope : Scope) {limit : Nat} (within : limit ≤ scope.limit) :
    Bounded limit (dataRangeWithin scope limit) := by
  induction limit with
  | zero => exact .zero _
  | succ limit ih =>
    have inner := ih (by omega)
    have advances := dataRangeWithin_advances scope limit
    apply Bounded.bind .peek .peek
    intro next
    split
    iterate 3 exact (datatype_bounded.within _).thenFree fun _ _ => .done _
    · have inside : Bounded limit (do
          let iri ← (datatype scope).within .namedDatatype
          pure (iri, ← facets scope [] scope.limit)) :=
        pair_bounded Prod.mk (((datatype_advances scope).within _).forward)
          (datatype_bounded.within _) ((facets_bounded scope [] (Nat.le_refl _)).fewer (by omega))
      exact thenFree (.enclosed _ inside) fun _ _ =>
        (checkCount_bounded ..).thenFree fun _ _ => .done _
    · exact several_bounded _ advances inner (by omega) fun _ _ => .map _ (checkCount_bounded ..)
    · exact several_bounded _ advances inner (by omega) fun _ _ => .map _ (onlyOperand_bounded ..)
    · exact several_bounded _ (literal_advances scope) ((literal_bounded scope).fewer (by omega))
        (by omega) fun _ _ => .map _ (checkCount_bounded ..)
    · exact .failOn _ (by simp)

theorem dataRange_bounded (scope : Scope) : Bounded scope.limit (dataRange scope) :=
  dataRangeWithin_bounded scope (Nat.le_refl _)

theorem classExpressionWithin_bounded (scope : Scope) {limit : Nat}
    (within : limit ≤ scope.limit) : Bounded limit (classExpressionWithin scope limit) := by
  induction limit with
  | zero => exact .zero _
  | succ limit ih =>
    have inner := ih (by omega)
    have advances := classExpressionWithin_advances scope limit
    have property : Bounded limit (objectProperty scope) :=
      (objectProperty_bounded scope).fewer (by omega)
    have propertyForward := (Composed.objectProperty scope).forward
    have valuedForward := (Composed.dataProperty scope).forward
    have range : Bounded limit (dataRange scope) := (dataRange_bounded scope).fewer (by omega)
    have literal : Bounded limit (literal scope) := (literal_bounded scope).fewer (by omega)
    apply Bounded.bind .peek .peek
    intro next
    split
    iterate 3 exact namedBy_bounded _ _
    · exact several_bounded _ advances inner (by omega) fun _ _ => .map _ (checkCount_bounded ..)
    · exact several_bounded _ advances inner (by omega) fun _ _ => .map _ (onlyOperand_bounded ..)
    · exact several_bounded _ (individual_advances scope) individual_bounded
        (show limit ≤ scope.limit by omega) fun _ _ => .map _ (checkCount_bounded ..)
    · exact .enclosed _ (pair_bounded _ propertyForward property inner)
    · exact .enclosed _ (pair_bounded _ propertyForward property individual_bounded)
    · exact .enclosed _ (property.thenFree fun _ _ => .done _)
    · refine .enclosed _ (.bind Composed.cardinality.forward cardinality_bounded fun count =>
        .bind propertyForward property fun property =>
        (optionalOperand_bounded inner).thenFree fun filler need => ?_)
      split <;> exact .done _
    · exact .enclosed _ (pair_bounded _ valuedForward dataProperty_bounded range)
    · exact .enclosed _ (pair_bounded _ (valuedForward.within _) (dataProperty_bounded.within _)
        (literal.within _))
    · refine .enclosed _ (.bind Composed.cardinality.forward cardinality_bounded fun count =>
        .bind valuedForward dataProperty_bounded fun property =>
        (optionalOperand_bounded (range.within _)).thenFree fun filler need => ?_)
      split <;> exact .done _
    · exact .failOn _ (by simp)

theorem classExpression_bounded (scope : Scope) : Bounded scope.limit (classExpression scope) :=
  classExpressionWithin_bounded scope (Nat.le_refl _)

/-! ## Statements -/

theorem annotationProperty_bounded : Bounded need (annotationProperty scope) := by
  apply name_bounded.thenFree
  intro named need
  dsimp only
  split
  · exact .done _
  · exact declared_bounded ..

theorem annotationSubject_bounded : Bounded need (annotationSubject scope) := by
  apply startsAnonymous_bounded.thenFree
  intro blank need
  split
  · exact anonymous_bounded.thenFree fun _ _ => .done _
  · exact (name_bounded.within _).thenFree fun _ _ => .done _

theorem annotationValue_bounded (scope : Scope) : Bounded scope.limit (annotationValue scope) := by
  apply Bounded.bind .peek .peek
  intro next
  split
  · exact (literal_bounded scope).thenFree fun _ _ => .done _
  · apply startsAnonymous_bounded.thenFree
    intro blank need
    split
    · exact anonymous_bounded.thenFree fun _ _ => .done _
    · exact (name_bounded.within _).thenFree fun _ _ => .done _

theorem singleNote_bounded (scope : Scope) : Bounded scope.limit (singleNote scope) := by
  have inside := pair_bounded Annotation.mk
    ((annotationProperty_advances scope).within (.annotationOperand 1 .annotationTerm)).forward
    (annotationProperty_bounded.within _)
    ((annotationValue_bounded scope).within (.annotationOperand 2 .annotationTerm))
  exact (Bounded.enclosed _ inside).fewer (Nat.le_succ _)

theorem annotationsAfter_bounded (scope : Scope) (read : List Annotation) {limit : Nat}
    (within : limit ≤ scope.limit) : Bounded limit (annotationsAfter scope read limit) := by
  induction limit generalizing read with
  | zero => exact .zero _
  | succ limit ih =>
    apply Bounded.bind .peek .peek
    intro next
    split
    · have note := ((singleNote_bounded scope).fewer within).within
        (.annotationNumber (read.length + 1))
      exact .onward (Advances.within _ (Construct.annotation scope).advances) note fun found =>
        ih (found :: read) (by omega)
    · exact .done _

theorem annotations_bounded (scope : Scope) : Bounded scope.limit (annotations scope) :=
  annotationsAfter_bounded scope [] (Nat.le_refl _)

theorem declaration_bounded (scope : Scope) : Bounded scope.limit (declaration scope) := by
  have inside : Bounded scope.limit (do
      let annotations ← annotations scope
      let kind ← declaredKind
      Reading.expect .openParen
      let (iri, position) ← name scope
      Reading.expect .closeParen
      pure (Statement.declaration ⟨kind, iri⟩ annotations position)) := by
    apply (annotations_bounded scope).thenFree
    intro notes need
    apply Bounded.thenFree
    · apply token.thenFree
      intro next need
      split
      · exact .done _
      · exact .failOn _ (by simp)
    · intro kind need
      exact (expect _).thenFree fun _ _ => name_bounded.thenFree fun _ _ =>
        (expect _).thenFree fun _ _ => .done _
  exact (Bounded.enclosed _ inside).fewer (Nat.le_succ _)

/-- Three operands, each with a context of its own. -/
theorem triple_bounded {γ δ : Type} {first : Reading α} {second : Reading β} {third : Reading γ}
    (make : α → β → γ → δ) (forward : Forward first) (left : Bounded need first)
    (onward : Forward second) (middle : Bounded need second) (right : Bounded need third)
    {one two three : Context} :
    Bounded need (do
      pure (make (← first.within one) (← second.within two) (← third.within three))) :=
  .bind (forward.within _) (left.within _) fun _ =>
    pair_bounded _ (onward.within _) (middle.within _) (right.within _)

theorem operands_bounded {keyword : Keyword} {reading : Reading Counted}
    (found : operands scope keyword = some reading) : Bounded scope.limit reading := by
  have expression := classExpression_bounded scope
  have several := expression.untilClose (classExpressionWithin_advances scope scope.limit) []
    (Nat.le_refl _)
  have property := objectProperty_bounded scope
  have onward := (Composed.objectProperty scope).forward
  have valued : Bounded scope.limit (dataProperty scope) := dataProperty_bounded
  have valuedOn := (Composed.dataProperty scope).forward
  have member : Bounded scope.limit (individual scope) := individual_bounded
  have memberOn := (individual_advances scope).forward
  have noted : Bounded scope.limit (annotationProperty scope) := annotationProperty_bounded
  have notedOn := (annotationProperty_advances scope).forward
  unfold operands at found
  split at found <;> simp only [Option.some.injEq, reduceCtorEq] at found <;> subst found
  · apply several.thenFree
    intro classes need
    split <;> exact .done _
  · exact several.thenFree fun _ _ => .done _
  · exact several.thenFree fun _ _ => .done _
  · exact pair_bounded _ onward property property
  · exact pair_bounded _ onward property property
  · exact pair_bounded _ onward property expression
  · exact pair_bounded _ onward property expression
  · exact property.thenFree fun _ _ => .done _
  · exact pair_bounded _ valuedOn valued valued
  · exact pair_bounded _ valuedOn valued expression
  · exact pair_bounded _ valuedOn valued (dataRange_bounded scope)
  · exact valued.thenFree fun _ _ => .done _
  · exact pair_bounded _ (Composed.classExpression scope).forward expression member
  · exact triple_bounded _ onward property memberOn member member
  · exact triple_bounded _ onward property memberOn member member
  · exact triple_bounded _ valuedOn valued memberOn member (literal_bounded scope)
  · exact (member.untilClose (individual_advances scope) [] (Nat.le_refl _)).thenFree
      fun _ _ => .done _
  · exact triple_bounded _ notedOn noted (Composed.annotationSubject scope).forward
      annotationSubject_bounded (annotationValue_bounded scope)
  · exact noted.thenFree fun _ _ => name_bounded.thenFree fun _ _ => .done _
  · exact noted.thenFree fun _ _ => name_bounded.thenFree fun _ _ => .done _

theorem atLeastTwo_cause {keyword : Keyword} {make : List α → Axiom} {read : List α}
    {cause : Cause} (wrong : atLeastTwo keyword make read = .error cause) :
    cause ≠ .limitReached := by
  unfold atLeastTwo at wrong
  split at wrong
  · rw [← Except.error.inj wrong]
    simp
  · simp at wrong

/-- What can be wrong with operands that were read is their number. -/
theorem operands_cause {σ : Type} [Store σ] {checks : Checks} {session after : Session σ}
    {keyword : Keyword} {reading : Reading Counted} {cause : Cause}
    (found : operands scope keyword = some reading)
    (read : Reads checks reading session (.error cause) after) : cause ≠ .limitReached := by
  unfold operands at found
  split at found <;> simp only [Option.some.injEq, reduceCtorEq] at found <;> subst found <;>
    simp only [Reads.bind_iff, Reads.pure_iff, reduceCtorEq, false_and, and_false,
      exists_false] at read
  · obtain ⟨classes, between, -, read⟩ := read
    split at read
    · simp at read
    · rw [← Except.error.inj (Reads.pure_iff.mp read).1]
      simp
  · obtain ⟨classes, between, -, wrong, -⟩ := read
    exact atLeastTwo_cause wrong
  · obtain ⟨classes, between, -, wrong, -⟩ := read
    exact atLeastTwo_cause wrong
  · obtain ⟨individuals, between, -, wrong, -⟩ := read
    exact atLeastTwo_cause wrong

theorem assertion_bounded (scope : Scope) (first : Scanned) :
    Bounded scope.limit (assertion scope first) := by
  unfold assertion
  split
  · split
    · next reading found =>
      have inside := pair_bounded Prod.mk (Composed.annotations scope).forward
        (annotations_bounded scope) (operands_bounded found)
      apply ((Bounded.enclosed _ inside).fewer (Nat.le_succ _)).of_parts
      intro σ _ checks session between after parts error short read failed
      obtain ⟨named, opened, inner, -, -, core, -⟩ := Reads.enclosed_iff.mp read
      obtain ⟨notes, noted, -, core⟩ := Reads.bind_iff.mp core
      obtain ⟨counted, counts, judged, core⟩ := Reads.bind_iff.mp core
      obtain ⟨rfl, -⟩ := Reads.pure_iff.mp core
      cases counted with
      | ok statement => simp at failed
      | error cause =>
        obtain ⟨same, -⟩ := Prod.mk.inj failed
        rw [← Except.error.inj same]
        exact operands_cause found judged
    · exact .failOn _ (by simp)
  · exact .failOn _ (by simp)

theorem statement?_bounded (scope : Scope) : Bounded scope.limit (statement? scope) := by
  apply Bounded.tokenThen
  intro next
  split
  · exact .inl (.done _)
  · refine .inr ⟨_, rfl, ?_⟩
    split
    · exact .map some (declaration_bounded scope)
    · exact .map some (assertion_bounded scope next)

/-! ## Documents -/

theorem boundSpace_bounded (first : Scanned) (label : String) :
    Bounded need (boundSpace first label) := by
  apply (expectAll _).thenFree
  intro _ need
  apply token.thenFree
  intro next need
  dsimp only
  split
  · exact (bracketedIri_bounded next).thenFree fun _ _ => .done _
  · exact thenFree (.failOn _ (by simp)) fun _ _ => .done _

theorem prefixBinding_bounded (labels : List String) : Bounded need (prefixBinding labels) := by
  apply Bounded.thenFree
  · refine (show Bounded (need + 1) _ from .enclosed _ ?_).fewer (Nat.le_succ _)
    apply token.thenFree
    intro first need
    dsimp only
    split
    · exact unscan.thenFree fun _ _ => boundSpace_bounded first _
    · exact boundSpace_bounded first _
    · exact thenFree (.failOn _ (by simp)) fun _ _ => boundSpace_bounded first _
  · intro parts need
    dsimp only
    split
    · exact .failAt _ (by simp)
    · exact (Bounded.report _).thenFree fun _ _ => .done _

theorem versioned_bounded (prefixes : Prefixes) (iri : Iri) :
    Bounded need (versioned prefixes iri) := by
  have announced (version : Option Iri) (need : Nat) :
      Bounded need (announced prefixes iri version) :=
    (Bounded.report _).thenFree fun _ _ => .done _
  apply peek.thenFree
  intro next need
  dsimp only
  split
  · exact token.thenFree fun _ _ => thenFree (.map _ (bracketedIri_bounded next)) announced
  · exact (Bounded.done _).thenFree announced

theorem header_bounded (prefixes : Prefixes) : Bounded need (header prefixes) := by
  apply ((expectAll _).within _).thenFree
  intro _ need
  apply token.thenFree
  intro first need
  dsimp only
  split
  · exact (bracketedIri_bounded first).thenFree fun _ _ => versioned_bounded ..
  · exact thenFree (.failAt _ (by simp)) fun _ _ => versioned_bounded ..

theorem preamble_bounded (prefixes : Prefixes) (labels : List String) (limit : Nat) :
    Bounded limit (preamble prefixes labels limit) := by
  induction limit generalizing prefixes labels with
  | zero => exact .zero _
  | succ limit ih =>
    apply Bounded.tokenThen
    intro next
    split
    · refine .inr ⟨_, rfl, ?_⟩
      exact .onward ((prefixBinding_advances labels).within _)
        ((prefixBinding_bounded labels).within _) fun binding => ih _ _
    · exact .inr ⟨_, rfl, header_bounded prefixes⟩
    · exact .inl (.failAt _ (by simp))
    · exact .inl (.failOn _ (by simp))

theorem ending_bounded : Bounded need ending := by
  apply token.thenFree
  intro next need
  split
  · exact .done _
  · exact .failOn _ (by simp)

variable {σ : Type} [Store σ] {checks : Checks} {session after : Session σ} {error : SyntaxError}

/-- A body is a loop over statements, each of which reads a token. -/
theorem body_unmet (enough : session.stream.ahead.length < scope.limit)
    (failed : (body scope scope.limit).run (Session.writer checks) session = (.error error, after)) :
    error.cause ≠ .limitReached := by
  obtain ⟨accepted, last, result, final, extra, chain, halts, ran, -⟩ :=
    body_run checks scope enough
  obtain ⟨same, rfl⟩ := Prod.mk.inj (ran.symm.trans failed)
  subst same
  have shorter : last.stream.ahead.length ≤ session.stream.ahead.length := by
    clear halts ran failed
    induction chain with
    | none => exact Nat.le_refl _
    | more read wrote others ih =>
      have first := read.statement_enclosed.2
      rw [← write_unmoved wrote] at first
      have second := ih (by omega)
      omega
  cases halts with
  | broken failed => exact (statement?_bounded scope).unmet (by omega) failed
  | refused read refused => simp [SyntaxError.found]

end OwlFunctional
