import OwlFunctional.Proofs.Parts
import OwlFunctional.Proofs.Uniformity

/-! All constructs of the grammar use positions and bounds alike.

Of two scopes with the same abbreviations the wider one reads what the other one reads, as long as
that one meets no bound.
-/

set_option autoImplicit false

namespace OwlFunctional

variable {near : Position → Position → Prop} {α β : Type}

/-- Statements that differ at most in the position of the declared name. -/
inductive Statement.Alike (near : Position → Position → Prop) : Statement → Statement → Prop where
  | declaration {declared : Declaration} {annotations : List Annotation} {first second : Position} :
      near first second → Statement.Alike near (.declaration declared annotations first)
        (.declaration declared annotations second)
  | assertion (annotated : AnnotatedAxiom) :
      Statement.Alike near (.assertion annotated) (.assertion annotated)

open Grammar

variable {scope wide : Scope}

/-! ## Names and literals -/

theorem bracketedIri_alike {lexeme : Lexeme} {left right : Position} (close : near left right) :
    Reading.Alike near Eq (bracketedIri ⟨lexeme, left⟩) (bracketedIri ⟨lexeme, right⟩) := by
  unfold bracketedIri
  dsimp only [Scanned.literal]
  split
  · exact .failAt close _
  · exact .andThen (.checkIri _ fun _ => .found close _) fun _ => .value _

theorem localName_alike (label : String) :
    Reading.Alike near Eq (localName label) (localName label) := by
  apply Reading.Alike.scannedThen .token
  intro lexeme left right close
  exact .ite (.value _) (.failAt close _)

theorem shortName_alike : Reading.Alike near Eq shortName shortName := by
  apply Reading.Alike.scannedThen .token
  intro lexeme left right close
  dsimp only [Scanned.token]
  split
  · exact .andThen (.expect _) fun _ => localName_alike _
  · exact localName_alike _
  · exact .andThen (.failAt close _) localName_alike

section

variable (wider : scope.Within wide)

include wider

theorem resolve_alike (label name : String) {left right : Position} (close : near left right) :
    Reading.Alike near Eq (resolve scope label name left) (resolve wide label name right) := by
  unfold resolve
  rw [wider.prefixes]
  split
  · exact .failAt close _
  · exact .andThen (.report _) fun _ => .value _

theorem labelledName_alike {left right : Position} (close : near left right) :
    Reading.Alike near (Named near) (labelledName scope left) (labelledName wide right) := by
  apply Reading.Alike.andThen shortName_alike
  intro found
  exact .andThen (resolve_alike wider _ _ close) fun iri => .done ⟨rfl, close⟩

theorem name_alike : Reading.Alike near (Named near) (name scope) (name wide) := by
  apply Reading.Alike.scannedThen .peek
  intro lexeme left right close
  dsimp only [Scanned.token]
  split
  · apply Reading.Alike.scannedThen .token
    intro _ _ _ _
    exact .andThen (bracketedIri_alike close) fun iri => .done ⟨rfl, close⟩
  · exact labelledName_alike wider close
  · exact labelledName_alike wider close
  · exact .failAt close _

omit wider in
theorem declared_alike (kind : EntityKind) (term : OwlTerm) (iri : Iri) {left right : Position}
    (close : near left right) :
    Reading.Alike near Eq (declared kind term iri left) (declared kind term iri right) := by
  unfold declared
  split
  · exact .failAt close _
  · exact .find _ _ (.found close _)

/-- A name that is built in as one of two things, or else one of a declared entity. -/
theorem namedBy_alike {first second : Iri} {top bottom : α} {kind : EntityKind}
    (make : Entity kind → α) (term : OwlTerm) :
    Reading.Alike near Eq
      (do
        let (iri, position) ← name scope
        if iri = first then pure top
        else if iri = second then pure bottom
        else make <$> declared kind term iri position)
      (do
        let (iri, position) ← name wide
        if iri = first then pure top
        else if iri = second then pure bottom
        else make <$> declared kind term iri position) := by
  apply Reading.Alike.namedThen (name_alike wider)
  intro iri left right close
  exact .ite (.value _) (.ite (.value _) (.map make (declared_alike kind term iri close)))

omit wider in
theorem startsAnonymous_alike : Reading.Alike near Eq startsAnonymous startsAnonymous :=
  .scannedThen .peek fun _ _ _ _ => .value _

omit wider in
theorem anonymous_alike : Reading.Alike near Eq anonymous anonymous := by
  apply Reading.Alike.andThen shortName_alike
  intro parts
  dsimp only
  split
  · exact .value _
  · exact Program.Alike.bind Reading.Alike.here fun _ _ close => Reading.Alike.failAt close _

theorem individual_alike : Reading.Alike near Eq (individual scope) (individual wide) := by
  apply Reading.Alike.andThen startsAnonymous_alike
  intro blank
  apply Reading.Alike.ite
  · exact .andThen anonymous_alike fun _ => .value _
  · apply Reading.Alike.namedThen ((name_alike wider).within _)
    intro iri left right close
    exact .andThen (declared_alike _ _ _ close) fun _ => .value _

omit wider in
theorem languageRest_alike (tag : String) {few many : Nat} (le : few ≤ many) :
    Reading.Alike near Eq (languageRest tag few) (languageRest tag many) := by
  induction few generalizing tag many with
  | zero => exact .atLimit _
  | succ few ih =>
    obtain ⟨many, rfl⟩ := Nat.exists_eq_add_of_lt le
    apply Program.Alike.bind Reading.Alike.subtag
    intro left right alike
    cases alike with
    | piece text => exact ih _ (by omega)
    | broken alike =>
      obtain ⟨lexeme, close⟩ := alike
      simp only [Reading.failOn, lexeme]
      exact Reading.Alike.failAt close _
    | absent close =>
      exact Reading.Alike.andThen (.checkTag _ fun _ => .found close _) fun _ => .value _

theorem language_alike : Reading.Alike near Eq (language scope) (language wide) := by
  apply Reading.Alike.andThen (.accept _)
  intro accepted
  apply Reading.Alike.ite
  · apply Reading.Alike.scannedThen .token
    intro lexeme left right close
    exact .ite (.map _ (languageRest_alike _ wider.limit)) (.failAt close _)
  · exact .value _

theorem datatypeSuffix_alike :
    Reading.Alike near Eq (datatypeSuffix scope) (datatypeSuffix wide) := by
  apply Reading.Alike.andThen (.accept _)
  intro accepted
  exact .ite (.namedThen (name_alike wider) fun _ _ _ _ => .value _) (.value _)

theorem typed_alike {left right : Position} (close : near left right) (kind : LiteralKind)
    (value : String) (language : Option String) :
    Reading.Alike near Eq (typed scope left kind value language)
      (typed wide right kind value language) := by
  apply Reading.Alike.andThen ((datatypeSuffix_alike wider).within _)
  intro suffix
  split
  · exact .value _
  · split
    · exact .ite (.value _) (Program.Alike.within (Reading.Alike.failAt close _) _)
    · exact .value _

theorem literal_alike : Reading.Alike near Eq (literal scope) (literal wide) := by
  apply Reading.Alike.scannedThen .token
  intro lexeme left right close
  dsimp only [Scanned.token]
  split
  · exact .value _
  · exact Program.Alike.within (Reading.Alike.failAt close _) _
  · exact .ite (.andThen ((language_alike wider).within _) (typed_alike wider close _ _))
      (.andThen (.value _) (typed_alike wider close _ _))

/-! ## Expressions -/

theorem objectPropertyWithin_alike {few many : Nat} (le : few ≤ many) :
    Reading.Alike near Eq (objectPropertyWithin scope few) (objectPropertyWithin wide many) := by
  induction few generalizing many with
  | zero => exact .atLimit _
  | succ few ih =>
    obtain ⟨many, rfl⟩ := Nat.exists_eq_add_of_lt le
    apply Reading.Alike.scannedThen .peek
    intro lexeme left right close
    apply Reading.Alike.ite
    · apply Reading.Alike.enclosed
      apply Reading.Alike.andThen (ih (by omega))
      intro inner
      split
      · exact .value _
      · exact Program.Alike.bind Reading.Alike.here fun _ _ close => Reading.Alike.failAt close _
    · exact namedBy_alike wider _ _

theorem objectProperty_alike :
    Reading.Alike near Eq (objectProperty scope) (objectProperty wide) :=
  objectPropertyWithin_alike wider wider.limit

theorem dataProperty_alike : Reading.Alike near Eq (dataProperty scope) (dataProperty wide) :=
  namedBy_alike wider _ _

theorem datatype_alike : Reading.Alike near Eq (datatype scope) (datatype wide) := by
  apply Reading.Alike.namedThen (name_alike wider)
  intro iri left right close
  exact .ite (.value _) (.andThen (.find _ _ (.found close _)) fun _ => .value _)

theorem facet_alike : Reading.Alike near Eq (facet scope) (facet wide) := by
  apply Reading.Alike.scannedThen .peek
  intro lexeme left right close
  apply Reading.Alike.ite
  · apply Reading.Alike.namedThen (name_alike wider)
    intro iri left right close
    dsimp only
    split
    · exact .value _
    · exact .failAt close _
  · exact .failAt close _

theorem facets_alike (read : List FacetRestriction) {few many : Nat} (le : few ≤ many) :
    Reading.Alike near Eq (facets scope read few) (facets wide read many) := by
  induction few generalizing read many with
  | zero => exact .atLimit _
  | succ few ih =>
    obtain ⟨many, rfl⟩ := Nat.exists_eq_add_of_lt le
    apply Reading.Alike.scannedThen .peek
    intro lexeme left right close
    apply Reading.Alike.ite
    · exact .value _
    · refine Reading.Alike.andThen (Program.Alike.within ?_ _) fun pair =>
        ih (pair :: read) (by omega)
      exact Reading.Alike.pair _ (facet_alike wider) (literal_alike wider)

omit wider in
theorem checkCount_alike (keyword : Keyword) (least : Nat) {left right : Position}
    (close : near left right) (operands : List α) :
    Reading.Alike near Eq (checkCount keyword least left operands)
      (checkCount keyword least right operands) := .ite (.failAt close _) (.value _)

omit wider in
theorem onlyOperand_alike (keyword : Keyword) {left right : Position} (close : near left right)
    (operands : List α) :
    Reading.Alike near Eq (onlyOperand keyword left operands)
      (onlyOperand keyword right operands) := by
  unfold onlyOperand
  split
  · exact .value _
  · exact .failAt close _

omit wider in
theorem cardinality_alike : Reading.Alike near Eq cardinality cardinality := by
  apply Reading.Alike.scannedThen .token
  intro lexeme left right close
  apply Reading.Alike.ite
  · dsimp only [Scanned.literal]
    split
    · exact .value _
    · exact .failAt close _
  · exact .failAt close _

omit wider in
theorem optionalOperand_alike {first second : Reading α} (alike : Reading.Alike near Eq first second) :
    Reading.Alike near Eq (optionalOperand first) (optionalOperand second) := by
  apply Reading.Alike.scannedThen .peek
  intro lexeme left right close
  exact .ite (.value _) (.map some alike)

/-- A construct with any number of operands, which is then made of them. -/
theorem several_alike {item other : Reading β} {make again : List β → Reading α} (keyword : Keyword)
    (alike : Reading.Alike near Eq item other)
    (made : ∀ operands, Reading.Alike near Eq (make operands) (again operands)) :
    Reading.Alike near Eq (enclosed keyword (Reading.untilClose item [] scope.limit) >>= make)
      (enclosed keyword (Reading.untilClose other [] wide.limit) >>= again) :=
  .andThen (.enclosed keyword (.untilClose alike [] wider.limit)) made

theorem dataRangeWithin_alike {few many : Nat} (le : few ≤ many) :
    Reading.Alike near Eq (dataRangeWithin scope few) (dataRangeWithin wide many) := by
  induction few generalizing many with
  | zero => exact .atLimit _
  | succ few ih =>
    obtain ⟨many, rfl⟩ := Nat.exists_eq_add_of_lt le
    have inner : Reading.Alike near Eq (dataRangeWithin scope few)
      (dataRangeWithin wide (few + many)) := ih (by omega)
    apply Reading.Alike.scannedThen .peek
    intro lexeme left right close
    dsimp only [Scanned.token]
    split
    iterate 3 exact .andThen ((datatype_alike wider).within _) fun _ => .value _
    · refine .andThen (.enclosed _ ?_) fun pair =>
        .andThen (checkCount_alike _ _ close _) fun _ => .value _
      exact .pair Prod.mk ((datatype_alike wider).within _) (facets_alike wider [] wider.limit)
    · exact several_alike wider _ inner fun _ => .map _ (checkCount_alike _ _ close _)
    · exact several_alike wider _ inner fun _ => .map _ (onlyOperand_alike _ close _)
    · exact several_alike wider _ (literal_alike wider) fun _ =>
        .map _ (checkCount_alike _ _ close _)
    · exact .failAt close _

theorem dataRange_alike : Reading.Alike near Eq (dataRange scope) (dataRange wide) :=
  dataRangeWithin_alike wider wider.limit

theorem classExpressionWithin_alike {few many : Nat} (le : few ≤ many) :
    Reading.Alike near Eq (classExpressionWithin scope few) (classExpressionWithin wide many) := by
  induction few generalizing many with
  | zero => exact .atLimit _
  | succ few ih =>
    -- The first side may run out of its bound, and the second one goes on as long as it does.
    obtain ⟨many, rfl⟩ := Nat.exists_eq_add_of_lt le
    have inner : Reading.Alike near Eq (classExpressionWithin scope few)
      (classExpressionWithin wide (few + many)) := ih (by omega)
    have property : Reading.Alike near Eq (objectProperty scope) (objectProperty wide) :=
      objectProperty_alike wider
    have valued : Reading.Alike near Eq (dataProperty scope) (dataProperty wide) :=
      dataProperty_alike wider
    have range : Reading.Alike near Eq (dataRange scope) (dataRange wide) := dataRange_alike wider
    apply Reading.Alike.scannedThen .peek
    intro lexeme left right close
    dsimp only [Scanned.token]
    split
    iterate 3 exact namedBy_alike wider _ _
    · exact several_alike wider _ inner fun _ => .map _ (checkCount_alike _ _ close _)
    · exact several_alike wider _ inner fun _ => .map _ (onlyOperand_alike _ close _)
    · exact several_alike wider _ (individual_alike wider) fun _ =>
        .map _ (checkCount_alike _ _ close _)
    · exact .enclosed _ (.pair _ property inner)
    · exact .enclosed _ (.pair _ property (individual_alike wider))
    · exact .enclosed _ (.andThen property fun _ => .value _)
    · refine .enclosed _ (.andThen cardinality_alike fun count => .andThen property fun found =>
        .andThen (optionalOperand_alike inner) fun filler => ?_)
      split <;> exact .value _
    · exact .enclosed _ (.pair _ valued range)
    · exact .enclosed _ (.pair _ (valued.within _) ((literal_alike wider).within _))
    · refine .enclosed _ (.andThen cardinality_alike fun count => .andThen valued fun found =>
        .andThen (optionalOperand_alike (range.within _)) fun filler => ?_)
      split <;> exact .value _
    · exact .failAt close _

theorem classExpression_alike :
    Reading.Alike near Eq (classExpression scope) (classExpression wide) :=
  classExpressionWithin_alike wider wider.limit

/-! ## Statements -/

theorem annotationProperty_alike :
    Reading.Alike near Eq (annotationProperty scope) (annotationProperty wide) := by
  apply Reading.Alike.namedThen (name_alike wider)
  intro iri left right close
  exact .ite (.value _) (declared_alike _ _ _ close)

theorem annotationSubject_alike :
    Reading.Alike near Eq (annotationSubject scope) (annotationSubject wide) := by
  apply Reading.Alike.andThen startsAnonymous_alike
  intro blank
  exact .ite (.andThen anonymous_alike fun _ => .value _)
    (.namedThen ((name_alike wider).within _) fun _ _ _ _ => .value _)

theorem annotationValue_alike :
    Reading.Alike near Eq (annotationValue scope) (annotationValue wide) := by
  apply Reading.Alike.scannedThen .peek
  intro lexeme left right close
  apply Reading.Alike.ite
  · exact .andThen (literal_alike wider) fun _ => .value _
  · apply Reading.Alike.andThen startsAnonymous_alike
    intro blank
    exact .ite (.andThen anonymous_alike fun _ => .value _)
      (.namedThen ((name_alike wider).within _) fun _ _ _ _ => .value _)

theorem singleNote_alike : Reading.Alike near Eq (singleNote scope) (singleNote wide) :=
  .enclosed _ (.pair _ ((annotationProperty_alike wider).within _)
    ((annotationValue_alike wider).within _))

theorem annotationsAfter_alike (read : List Annotation) {few many : Nat} (le : few ≤ many) :
    Reading.Alike near Eq (annotationsAfter scope read few) (annotationsAfter wide read many) := by
  induction few generalizing read many with
  | zero => exact .atLimit _
  | succ few ih =>
    obtain ⟨many, rfl⟩ := Nat.exists_eq_add_of_lt le
    apply Reading.Alike.scannedThen .peek
    intro lexeme left right close
    exact .ite (.andThen ((singleNote_alike wider).within _) fun note =>
      ih (note :: read) (by omega)) (.value _)

theorem annotations_alike : Reading.Alike near Eq (annotations scope) (annotations wide) :=
  annotationsAfter_alike wider [] wider.limit

omit wider in
theorem declaredKind_alike : Reading.Alike near Eq declaredKind declaredKind := by
  apply Reading.Alike.scannedThen .token
  intro lexeme left right close
  dsimp only [Scanned.token]
  split
  · exact .value _
  · exact .failAt close _

theorem declaration_alike :
    Reading.Alike near (Statement.Alike near) (declaration scope) (declaration wide) := by
  apply Reading.Alike.enclosed
  apply Reading.Alike.andThen (annotations_alike wider)
  intro notes
  apply Reading.Alike.andThen declaredKind_alike
  intro kind
  apply Reading.Alike.andThen (.expect _)
  intro _
  apply Reading.Alike.namedThen (name_alike wider)
  intro iri left right close
  exact .andThen (.expect _) fun _ => .done (.declaration close)

omit wider in
/-- Three operands, each with a context of its own. -/
theorem triple_alike {γ δ : Type} {first second : Reading α} {third fourth : Reading β}
    {fifth sixth : Reading γ} (make : α → β → γ → δ)
    (head : Reading.Alike near Eq first second) (middle : Reading.Alike near Eq third fourth)
    (last : Reading.Alike near Eq fifth sixth) {one two three : Context} :
    Reading.Alike near Eq
      (do pure (make (← first.within one) (← third.within two) (← fifth.within three)))
      (do pure (make (← second.within one) (← fourth.within two) (← sixth.within three))) :=
  .andThen (head.within _) fun _ => .pair _ (middle.within _) (last.within _)

/-- Both scopes have operands for the same keywords. -/
theorem operands_alike (keyword : Keyword) :
    Option.Rel (Reading.Alike near Eq) (operands scope keyword) (operands wide keyword) := by
  have expression : Reading.Alike near Eq (classExpression scope) (classExpression wide) :=
    classExpression_alike wider
  have property : Reading.Alike near Eq (objectProperty scope) (objectProperty wide) :=
    objectProperty_alike wider
  have valued : Reading.Alike near Eq (dataProperty scope) (dataProperty wide) :=
    dataProperty_alike wider
  have member : Reading.Alike near Eq (individual scope) (individual wide) :=
    individual_alike wider
  have noted : Reading.Alike near Eq (annotationProperty scope) (annotationProperty wide) :=
    annotationProperty_alike wider
  have classes := Reading.Alike.untilClose expression [] wider.limit
  unfold operands
  split
  · refine .some (.andThen classes fun found => ?_)
    split <;> exact .value _
  · exact .some (.andThen classes fun _ => .value _)
  · exact .some (.andThen classes fun _ => .value _)
  · exact .some (.pair _ property property)
  · exact .some (.pair _ property property)
  · exact .some (.pair _ property expression)
  · exact .some (.pair _ property expression)
  · exact .some (.andThen property fun _ => .value _)
  · exact .some (.pair _ valued valued)
  · exact .some (.pair _ valued expression)
  · exact .some (.pair _ valued (dataRange_alike wider))
  · exact .some (.andThen valued fun _ => .value _)
  · exact .some (.pair _ expression member)
  · exact .some (triple_alike _ property member member)
  · exact .some (triple_alike _ property member member)
  · exact .some (triple_alike _ valued member (literal_alike wider))
  · exact .some (.andThen (.untilClose member [] wider.limit) fun _ => .value _)
  · exact .some (triple_alike _ noted (annotationSubject_alike wider)
      (annotationValue_alike wider))
  · exact .some (.andThen noted fun _ => .namedThen (name_alike wider) fun _ _ _ _ => .value _)
  · exact .some (.andThen noted fun _ => .namedThen (name_alike wider) fun _ _ _ _ => .value _)
  · exact .none

theorem assertion_alike {lexeme : Lexeme} {left right : Position} (close : near left right) :
    Reading.Alike near (Statement.Alike near) (assertion scope ⟨lexeme, left⟩)
      (assertion wide ⟨lexeme, right⟩) := by
  unfold assertion
  dsimp only [Scanned.token]
  split
  · next keyword _ =>
    have alike : Option.Rel (Reading.Alike near Eq) _ _ := operands_alike wider keyword
    generalize operands scope keyword = first at alike
    generalize operands wide keyword = second at alike
    cases alike with
    | none => exact .failAt close _
    | some alike =>
      apply Reading.Alike.andThen (.enclosed _ (.pair Prod.mk (annotations_alike wider) alike))
      intro parts
      split
      · exact .done (.assertion _)
      · exact .failAt close _
  · exact .failAt close _

theorem statement?_alike :
    Reading.Alike near (Option.Rel (Statement.Alike near)) (statement? scope) (statement? wide) := by
  apply Reading.Alike.scannedThen .token
  intro lexeme left right close
  apply Reading.Alike.ite
  · exact .done .none
  · apply Reading.Alike.andThen .unscan
    intro _
    exact .ite
      (Program.Alike.bind (declaration_alike wider) fun _ _ alike => .done (.some alike))
      (Program.Alike.bind (assertion_alike wider close) fun _ _ alike => .done (.some alike))

end

/-! ## Documents -/

/-- What is read of an abbreviation: the first token of its label, the label, and its namespace. -/
def Labelled (near : Position → Position → Prop) (first second : Scanned × String × Iri) : Prop :=
  first.1.Alike near second.1 ∧ first.2 = second.2

theorem boundSpace_alike {lexeme : Lexeme} {left right : Position} (close : near left right)
    (label : String) :
    Reading.Alike near (Labelled near) (boundSpace ⟨lexeme, left⟩ label)
      (boundSpace ⟨lexeme, right⟩ label) := by
  apply Reading.Alike.andThen (.expectAll _)
  intro _
  apply Reading.Alike.scannedThen .token
  intro next before behind again
  exact .ite (.andThen (bracketedIri_alike again) fun _ => .done ⟨⟨rfl, close⟩, rfl⟩)
    (Reading.Alike.andThen (.failAt again _) fun _ => .done ⟨⟨rfl, close⟩, rfl⟩)

theorem prefixBinding_alike (labels : List String) :
    Reading.Alike near Eq (prefixBinding labels) (prefixBinding labels) := by
  apply Program.Alike.bind
  · show Program.Alike _ _ (Labelled near) _ _
    apply Reading.Alike.enclosed
    apply Reading.Alike.scannedThen .token
    intro lexeme left right close
    dsimp only [Scanned.token]
    split
    · exact .andThen .unscan fun _ => boundSpace_alike close _
    · exact boundSpace_alike close _
    · exact Reading.Alike.andThen (.failAt close _) fun _ => boundSpace_alike close _
  · rintro ⟨⟨lexeme, left⟩, label, iri⟩ ⟨⟨_, right⟩, _, _⟩ ⟨⟨rfl, close⟩, same⟩
    obtain ⟨rfl, rfl⟩ := Prod.mk.inj same
    exact Reading.Alike.ite (.failAt close _) (.andThen (.report _) fun _ => .value _)

theorem versioned_alike (prefixes : Prefixes) (iri : Iri) :
    Reading.Alike near Eq (versioned prefixes iri) (versioned prefixes iri) := by
  have announced (version : Option Iri) :
      Reading.Alike near Eq (announced prefixes iri version) (announced prefixes iri version) :=
    .andThen (.report _) fun _ => .value _
  apply Reading.Alike.scannedThen .peek
  intro next left right close
  exact .ite (.scannedThen .token fun _ _ _ _ =>
      .andThen (.map _ (bracketedIri_alike close)) announced)
    (.andThen (.value _) announced)

theorem header_alike (prefixes : Prefixes) :
    Reading.Alike near Eq (header prefixes) (header prefixes) := by
  apply Reading.Alike.andThen (Program.Alike.within (Reading.Alike.expectAll _) _)
  intro _
  apply Reading.Alike.scannedThen .token
  intro lexeme left right close
  exact .ite (.andThen (bracketedIri_alike close) (versioned_alike prefixes))
    (Reading.Alike.andThen (.failAt close _) (versioned_alike prefixes))

theorem preamble_alike (prefixes : Prefixes) (labels : List String) {few many : Nat}
    (le : few ≤ many) :
    Reading.Alike near Eq (preamble prefixes labels few) (preamble prefixes labels many) := by
  induction few generalizing prefixes labels many with
  | zero => exact .atLimit _
  | succ few ih =>
    obtain ⟨many, rfl⟩ := Nat.exists_eq_add_of_lt le
    apply Reading.Alike.scannedThen .token
    intro lexeme left right close
    dsimp only [Scanned.token]
    split
    · exact .andThen .unscan fun _ =>
        .andThen ((prefixBinding_alike labels).within _) fun binding => ih _ _ (by omega)
    · exact .andThen .unscan fun _ => header_alike prefixes
    · exact .failAt close _
    · exact .failAt close _

theorem ending_alike : Reading.Alike near Eq ending ending := by
  apply Reading.Alike.scannedThen .token
  intro lexeme left right close
  exact .ite (.value _) (.failAt close _)

/-- Writings that go alike, as the readings in them do. -/
abbrev Writing.Alike (near : Position → Position → Prop) (same : α → α → Prop)
    (first second : Writing α) : Prop := Program.Alike near (Command.Alike near) same first second

theorem Program.Spent.ofReading {reading : Reading α} (spent : reading.Spent) :
    (Writing.ofReading reading).Spent := by
  induction reading with
  | done value => exact spent.elim
  | fail error => exact spent
  | ask query refused next ih => exact ⟨spent.1, fun reply => ih reply (spent.2 reply)⟩

theorem Writing.ofReading_alike {same : α → α → Prop} {first second : Reading α}
    (alike : Reading.Alike near same first second) :
    Writing.Alike near same (.ofReading first) (.ofReading second) := by
  induction alike with
  | done given => exact .done given
  | fail alike => exact .fail alike
  | ask refused _ ih => exact .ask refused ih
  | spent _ spent => exact .spent _ spent.ofReading

theorem write_alike {first second : Statement} (alike : first.Alike near second) :
    Writing.Alike near Eq (write first) (write second) := by
  cases alike with
  | declaration close => exact .ask (fun _ => .found close _) fun _ _ same => .done same
  | assertion annotated => exact .ask nofun fun _ _ same => .done same

theorem body_alike (wider : scope.Within wide) {few many : Nat} (le : few ≤ many) :
    Writing.Alike near Eq (body scope few) (body wide many) := by
  induction few generalizing many with
  | zero => exact .spent _ (Program.Spent.ofReading ⟨nofun, fun _ => rfl⟩)
  | succ few ih =>
    obtain ⟨many, rfl⟩ := Nat.exists_eq_add_of_lt le
    apply Program.Alike.bind (Writing.ofReading_alike (statement?_alike wider))
    intro left right alike
    cases alike with
    | none => exact .done rfl
    | some alike => exact Program.Alike.bind (write_alike alike) fun _ _ _ => ih (by omega)

theorem statements_alike (wider : scope.Within wide) :
    Writing.Alike near Eq (statements scope) (statements wide) :=
  Program.Alike.bind (body_alike wider wider.limit) fun _ _ _ =>
    Writing.ofReading_alike ending_alike

end OwlFunctional
