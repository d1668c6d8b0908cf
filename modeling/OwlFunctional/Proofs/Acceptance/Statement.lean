import OwlFunctional.Proofs.Acceptance.Expression
import OwlFunctional.Proofs.Spelling.Document

/-! What is spelled by the grammar of statements is read, if all references are accepted. -/

set_option autoImplicit false

namespace OwlFunctional.Acceptance

open Spelling Grammar

variable {session : Session Catalogue} {input rest : List Lexeme} {scope : Scope}

/-! ## Annotations -/

theorem readsUpTo_annotationProperty {property : Entity .annotationProperty}
    (spelled : Name scope.prefixes.resolve? property.iri input rest) (here : session.At input)
    (resolve : ∀ declaration ∈ annotationReferences property,
      session.store.Resolves declaration) :
    ReadsUpTo (annotationProperty scope) session property rest := by
  obtain ⟨position, between, named, ahead⟩ := readsUpTo_name spelled here
  by_cases builtin : Vocabulary.isBuiltinAnnotationProperty property.iri = true
  · exact ⟨between, Reads.bind_iff.mpr ⟨_, between, named, by simp [builtin]⟩, ahead⟩
  · have resolves := resolve ⟨.annotationProperty, property.iri⟩ (by
      simp [annotationReferences, builtin])
    obtain ⟨after, found, same⟩ :=
      reads_declared ((named.grows.resolves_iff _).mpr resolves) (by simp)
    refine ⟨after, Reads.bind_iff.mpr ⟨_, between, named, ?_⟩, by rw [same, ahead]⟩
    dsimp only
    rwa [if_neg builtin]

theorem readsUpTo_annotationSubject {subject : AnnotationSubject}
    (spelled : Spelling.AnnotationSubject scope.prefixes subject input rest)
    (here : session.At input) : ReadsUpTo (annotationSubject scope) session subject rest := by
  cases spelled with
  | iri name =>
    obtain ⟨spelled, other⟩ := name_of_globally name
    refine readsUpTo_unmarked other here fun looked there _ => ?_
    obtain ⟨position, after, named, ahead⟩ := readsUpTo_name spelled there
    exact ⟨after, Reads.bind_iff.mpr ⟨_, after, Reads.within_iff.mpr named, by simp⟩, ahead⟩
  | anonymous short => exact readsUpTo_marked short here

theorem readsTo_annotationValue {value : AnnotationValue}
    (spelled : Spelling.AnnotationValue scope.prefixes value input rest) (here : session.At input)
    (enough : size input < scope.limit) (ended : Ended rest) :
    ReadsTo (annotationValue scope) session value rest := by
  obtain ⟨next, peeked, look, seen, there⟩ := reads_peek here
  have first : next.token = (firstLexeme input).token := by rw [Scanned.token, seen]
  -- The token decides between a literal and a name, and names are read as in subjects.
  have plain (kind : (firstLexeme input).token.startsLiteral = false)
      (read : ReadsUpTo (anonymousOr AnnotationValue.anonymous do
        let found ← (name scope).within .annotationValue
        pure (.iri found.1)) peeked value rest) :
      ReadsTo (annotationValue scope) session value rest := by
    obtain ⟨after, read, ahead⟩ := read
    refine ⟨after, Reads.bind_iff.mpr ⟨next, peeked, look, ?_⟩, read.atAhead there ahead⟩
    rwa [if_neg (by simp [first, kind])]
  cases spelled with
  | iri named =>
    obtain ⟨spelled, other⟩ := name_of_globally named
    have starts := name_starts spelled
    refine plain ?_ (readsUpTo_unmarked other there fun looked lookedAt _ => ?_)
    · cases kind : (firstLexeme input).token <;>
        simp [kind, Token.startsName, Token.startsLiteral] at starts ⊢
    · obtain ⟨position, after, named, ahead⟩ := readsUpTo_name spelled lookedAt
      exact ⟨after, Reads.bind_iff.mpr ⟨_, after, Reads.within_iff.mpr named, by simp⟩, ahead⟩
  | anonymous short =>
    refine plain ?_ (readsUpTo_marked short there)
    rcases shortName_first short with first | ⟨first, -⟩ <;> simp [first, Token.startsLiteral]
  | literal content =>
    have starts : next.token.startsLiteral = true := by rw [first, literal_starts content]
    obtain ⟨after, read, afterAt⟩ := readsTo_literal content there enough ended
    refine ⟨after, Reads.bind_iff.mpr ⟨next, peeked, look, ?_⟩, afterAt⟩
    rw [if_pos starts]
    exact Reads.bind_iff.mpr ⟨_, after, read, by simp⟩

theorem annotationProperty_accepted (scope : Scope) (limit : Nat) :
    Accepts (annotationProperty scope)
      (fun property => Name scope.prefixes.resolve? property.iri) annotationReferences limit :=
  fun _ _ _ name =>
  { starts := by simp [startsOperand, name_starts name]
    smaller := name.isLocal.size_lt
    reads := fun here _ _ resolve => (readsUpTo_annotationProperty name here resolve).readsTo here }

theorem annotationSubject_accepted (scope : Scope) (limit : Nat) :
    Accepts (annotationSubject scope) (Spelling.AnnotationSubject scope.prefixes) (fun _ => [])
      limit := fun _ _ _ spelled =>
  { starts := by
      cases spelled with
      | iri name => simp [startsOperand, name_starts name]
      | anonymous short => exact anonymous_starts short
    smaller := spelled.isLocal.size_lt
    reads := fun here _ _ _ => (readsUpTo_annotationSubject spelled here).readsTo here }

theorem annotationValue_accepted {scope : Scope} {limit : Nat} (within : limit ≤ scope.limit) :
    Accepts (annotationValue scope) (Spelling.AnnotationValue scope.prefixes) (fun _ => [])
      limit := fun _ _ _ spelled =>
  { starts := by
      cases spelled with
      | iri name => simp [startsOperand, name_starts name]
      | anonymous short => exact anonymous_starts short
      | literal content => simp [startsOperand, literal_starts content]
    smaller := by
      cases spelled with
      | iri name => exact name.isLocal.size_lt
      | anonymous short => exact short.isLocal.size_lt
      | literal content => exact content.size_lt
    reads := fun here enough ended _ => readsTo_annotationValue spelled here (by omega) ended }

theorem readsUpTo_singleNote {note : Annotation}
    (spelled : Spelling.Note scope.prefixes note input rest) (here : session.At input)
    (enough : size input < scope.limit)
    (resolve : ∀ declaration ∈ note.references, session.store.Resolves declaration) :
    ReadsUpTo (singleNote scope) session note rest := by
  obtain ⟨first, second, third, opens, name, value, closes⟩ := spelled
  have property := annotationProperty_accepted scope scope.limit name
  exact (property.within.pair (annotationValue_accepted (Nat.le_refl _) value).within).enclosed
    opens closes here (by omega) (by rw [List.append_nil]; exact resolve)

/-- No annotation starts here. -/
def Unnoted (input : List Lexeme) : Prop := (firstLexeme input).token ≠ .keyword .annotationTerm

theorem readsTo_annotationsAfter {limit : Nat} {notes : List Annotation} (before : List Annotation)
    (sequence : Sequence (Spelling.Note scope.prefixes) notes input rest)
    (last : Unnoted rest) (here : session.At input)
    (within : size input < scope.limit) (enough : size input < limit)
    (resolve : ∀ declaration ∈ notes.flatMap Annotation.references,
      session.store.Resolves declaration) :
    ReadsTo (annotationsAfter scope before limit) session (before.reverse ++ notes) rest := by
  induction sequence generalizing session before limit with
  | nil =>
    obtain ⟨limit, rfl⟩ := Nat.exists_eq_succ_of_ne_zero (Nat.ne_zero_of_lt enough)
    obtain ⟨next, peeked, look, seen, there⟩ := reads_peek here
    refine ⟨peeked, Reads.bind_iff.mpr ⟨next, peeked, look, ?_⟩, there⟩
    rw [if_neg (by rwa [Scanned.token, seen])]
    simp
  | @cons note others input middle rest first sequence ih =>
    obtain ⟨limit, rfl⟩ := Nat.exists_eq_succ_of_ne_zero (Nat.ne_zero_of_lt enough)
    obtain ⟨next, peeked, look, seen, there⟩ := reads_peek here
    rw [List.flatMap_cons] at resolve
    obtain ⟨firstResolves, othersResolve⟩ :=
      List.forall_mem_append.mp (look.grows.resolves resolve)
    have smaller := first.isLocal.size_lt
    have noted := readsUpTo_singleNote first there within firstResolves
    have starts : next.token = .keyword .annotationTerm := by
      obtain ⟨_, _, _, opens, -⟩ := first
      exact opens_token opens seen
    obtain ⟨between, noting, ahead⟩ := noted
    have later : ReadsTo (annotationsAfter scope (note :: before) limit) between _ rest :=
      ih (note :: before) last (noting.atAhead there ahead) (by omega) (by omega)
        (noting.grows.resolves othersResolve)
    obtain ⟨after, read, afterAt⟩ := later
    refine ⟨after, Reads.bind_iff.mpr ⟨next, peeked, look, ?_⟩, afterAt⟩
    rw [if_pos starts]
    exact Reads.bind_iff.mpr ⟨note, between, Reads.within_iff.mpr noting, by simpa using read⟩

/-! ## Axioms -/

theorem name_unlike {resolve : String → String → Option Iri} {iri : Iri}
    (name : Name resolve iri input rest) : Unnoted input := by
  intro first
  have starts := name_starts name
  simp [first, Token.startsName] at starts

theorem opens_unlike {keyword : Keyword} (opens : Opens keyword input rest)
    (other : keyword ≠ .annotationTerm) : Unnoted input := by
  simp [Unnoted, opens_first opens, other]

theorem individual_unlike {prefixes : Prefixes} {individual : Individual}
    (spelled : Spelling.Individual prefixes individual input rest) : Unnoted input := by
  cases spelled with
  | named name => exact name_unlike name
  | anonymous short => rcases shortName_first short with first | ⟨first, -⟩ <;> simp [Unnoted, first]

theorem objectProperty_unlike {prefixes : Prefixes} {property : ObjectPropertyExpression}
    (spelled : ObjectProperty prefixes property input rest) : Unnoted input := by
  cases spelled with
  | top name | bottom name | named name => exact name_unlike name
  | inverseOf opens => exact opens_unlike opens (by simp)

theorem dataProperty_unlike {prefixes : Prefixes} {property : DataPropertyExpression}
    (spelled : DataProperty prefixes property input rest) : Unnoted input := by
  cases spelled with
  | top name | bottom name | named name => exact name_unlike name

theorem class_unlike {prefixes : Prefixes} {expression : ClassExpression}
    (spelled : Class prefixes expression input rest) : Unnoted input := by
  cases spelled with
  | thing name | nothing name | named name => exact name_unlike name
  | junction opens | complementOf opens | oneOf opens | objectQuantified opens
  | objectHasValue opens | objectHasSelf opens | objectCardinality opens | objectQualified opens
  | dataQuantified opens | dataHasValue opens | dataCardinality opens | dataQualified opens =>
    exact opens_unlike opens (by simp)

/-- No axiom has an operand that looks like one more annotation. -/
theorem operands_unlike {prefixes : Prefixes} {statement : Axiom}
    (spelled : Operands prefixes statement input rest) : Unnoted input := by
  cases spelled with
  | subClassOf first | classAssertion first => exact class_unlike first
  | equivalentClasses classes enough | disjointClasses classes enough =>
    cases classes with
    | nil => simp at enough
    | cons first => exact class_unlike first
  | subObjectPropertyOf first | inverseObjectProperties first | objectPropertyDomain first
  | objectPropertyRange first | objectCharacteristic first | objectPropertyAssertion first
  | negativeObjectPropertyAssertion first => exact objectProperty_unlike first
  | subDataPropertyOf first | dataPropertyDomain first | dataPropertyRange first
  | functionalDataProperty first | dataPropertyAssertion first => exact dataProperty_unlike first
  | differentIndividuals individuals enough =>
    cases individuals with
    | nil => simp at enough
    | cons first => exact individual_unlike first
  | annotationAssertion name | annotationPropertyDomain name | annotationPropertyRange name =>
    exact name_unlike name

theorem readsTo_several {α : Type} {item : Reading α}
    {Spells : α → List Lexeme → List Lexeme → Prop}
    {references : α → List Declaration} (accepts : Accepts item Spells references scope.limit)
    {keyword : Keyword} {make : List α → Axiom} {values : List α} {last : List Lexeme}
    (sequence : Sequence Spells values input rest) (several : 2 ≤ values.length)
    (closes : Closes rest last) (here : session.At input) (enough : size input < scope.limit)
    (resolve : ∀ declaration ∈ values.flatMap references, session.store.Resolves declaration) :
    ReadsTo (do
      let operands ← Reading.untilClose item [] scope.limit
      pure (atLeastTwo keyword make operands)) session (.ok (make values)) rest := by
  have all := readsTo_untilClose accepts sequence closes here enough enough resolve
  refine all.bind fun _ there _ => ?_
  rw [atLeastTwo, if_neg (by omega)]
  exact .pure there

/-- An annotation property and an identifier that need not be declared. -/
theorem readsTo_annotated {property : Entity .annotationProperty} {iri : Iri}
    {middle : List Lexeme} {statement : Axiom}
    {next : Entity .annotationProperty → Iri × Position → Reading Counted}
    (spelled : Name scope.prefixes.resolve? property.iri input middle)
    (named : Name scope.prefixes.resolve? iri middle rest) (here : session.At input)
    (resolve : ∀ declaration ∈ annotationReferences property,
      session.store.Resolves declaration)
    (made : ∀ position, next property (iri, position) = pure (.ok statement)) :
    ReadsTo (do
      let property ← annotationProperty scope
      next property (← name scope)) session (.ok statement) rest := by
  have first := (readsUpTo_annotationProperty spelled here resolve).readsTo here
  refine first.bind fun between there _ => ?_
  obtain ⟨position, read⟩ := readsUpTo_name named there
  refine (read.readsTo there).bind fun _ there _ => ?_
  rw [made]
  exact .pure there

theorem readsTo_axiomOperands {statement : Axiom} {last : List Lexeme}
    (spelled : Operands scope.prefixes statement input rest) (closes : Closes rest last)
    (here : session.At input) (enough : size input < scope.limit)
    (resolve : ∀ declaration ∈ statement.references, session.store.Resolves declaration) :
    ∃ reading, operands scope statement.keyword = some reading ∧
      ReadsTo reading session (.ok statement) rest := by
  have ended := Ended.ofCloses closes
  have object := objectProperty_accepted (Nat.le_refl scope.limit)
  have data := dataProperty_accepted scope scope.limit
  have expression := class_accepted (Nat.le_refl scope.limit)
  have individual := individual_accepted scope scope.limit
  have noted := annotationProperty_accepted scope scope.limit
  cases spelled with
  | subClassOf sub super =>
    have both := readsTo_untilClose expression (.cons sub (.cons super .nil)) closes here
      enough enough (by simpa [Axiom.references] using resolve)
    exact ⟨_, rfl, both.bind fun _ there _ => .pure there⟩
  | equivalentClasses classes several | disjointClasses classes several =>
    exact ⟨_, rfl, readsTo_several expression classes several closes here enough resolve⟩
  | subObjectPropertyOf sub super | inverseObjectProperties sub super =>
    exact ⟨_, rfl, ((object sub).pair (object super)).reads here enough ended resolve⟩
  | objectPropertyDomain property domain | objectPropertyRange property domain =>
    exact ⟨_, rfl, ((object property).pair (expression domain)).reads here enough ended resolve⟩
  | objectCharacteristic property =>
    exact ⟨_, rfl, (object property).unary.reads here enough ended resolve⟩
  | subDataPropertyOf sub super =>
    exact ⟨_, rfl, ((data sub).pair (data super)).reads here enough ended resolve⟩
  | dataPropertyDomain property domain =>
    exact ⟨_, rfl, ((data property).pair (expression domain)).reads here enough ended resolve⟩
  | dataPropertyRange property range =>
    have ranged := dataRange_accepted (Nat.le_refl scope.limit) range
    exact ⟨_, rfl, ((data property).pair ranged).reads here enough ended resolve⟩
  | functionalDataProperty property =>
    exact ⟨_, rfl, (data property).unary.reads here enough ended resolve⟩
  | classAssertion class_ one =>
    exact ⟨_, rfl, ((expression class_).pair (individual one)).reads here enough ended resolve⟩
  | objectPropertyAssertion property source target
  | negativeObjectPropertyAssertion property source target =>
    exact ⟨_, rfl, ((object property).within.triple (individual source).within
      (individual target).within).reads here enough ended resolve⟩
  | dataPropertyAssertion property source target =>
    have valued := literal_accepted (Nat.le_refl scope.limit) target
    exact ⟨_, rfl, ((data property).within.triple (individual source).within
      valued.within).reads here enough ended (by simpa [Axiom.references] using resolve)⟩
  | differentIndividuals individuals several =>
    exact ⟨_, rfl, readsTo_several individual individuals several closes here enough resolve⟩
  | annotationAssertion name subject value =>
    have about := annotationSubject_accepted scope scope.limit subject
    have valued := annotationValue_accepted (Nat.le_refl scope.limit) value
    exact ⟨_, rfl, ((noted name).within.triple about.within valued.within).reads here enough
      ended (by simpa [Axiom.references] using resolve)⟩
  | annotationPropertyDomain name domain | annotationPropertyRange name domain =>
    exact ⟨_, rfl, readsTo_annotated name domain here resolve fun _ => rfl⟩

/-! ## Statements -/

theorem readsTo_annotations {notes : List Annotation}
    (sequence : Sequence (Spelling.Note scope.prefixes) notes input rest)
    (last : Unnoted rest) (here : session.At input) (enough : size input < scope.limit)
    (resolve : ∀ declaration ∈ notes.flatMap Annotation.references,
      session.store.Resolves declaration) :
    ReadsTo (annotations scope) session notes rest :=
  readsTo_annotationsAfter [] sequence last here enough enough resolve

theorem readsTo_declaredKind {kind : EntityKind} (mark : Mark (.keyword (.entity kind)) input rest)
    (here : session.At input) : ReadsTo declaredKind session kind rest := by
  obtain ⟨literal, takes⟩ := mark
  obtain ⟨scanned, after, scan, same, ahead⟩ := readsUpTo_token takes here
  have token : scanned.token = .keyword (.entity kind) := by rw [Scanned.token, same]
  refine ⟨after, Reads.bind_iff.mpr ⟨scanned, after, scan, ?_⟩, scan.atAhead here ahead⟩
  simp [token]

/-- A statement of the same content. A declaration is given another position. -/
inductive SameContent : Statement → Statement → Prop where
  | declaration {declared : Declaration} {notes : List Annotation} {first second : Position} :
      SameContent (.declaration declared notes first) (.declaration declared notes second)
  | assertion {annotated : AnnotatedAxiom} :
      SameContent (.assertion annotated) (.assertion annotated)

theorem readsUpTo_declaration {declared : Declaration} {notes : List Annotation}
    {position : Position} {first second third fourth fifth : List Lexeme}
    (opens : Opens .declaration input first)
    (sequence : Sequence (Spelling.Note scope.prefixes) notes first second)
    (inner : Opens (.entity declared.kind) second third)
    (named : Name scope.prefixes.resolve? declared.iri third fourth) (ends : Closes fourth fifth)
    (closes : Closes fifth rest) (here : session.At input) (enough : size input < scope.limit)
    (resolve : ∀ declaration ∈ notes.flatMap Annotation.references,
      session.store.Resolves declaration) :
    ∃ found, SameContent (.declaration declared notes position) found ∧
      ReadsUpTo (declaration scope) session found rest := by
  have fewer := opens.isLocal.size_lt
  have unnoted : Unnoted second := opens_unlike inner (by simp)
  obtain ⟨between, mark, paren⟩ := inner
  refine exists_enclosed opens here (fun opened openedAt grown => ?_) closes
  obtain ⟨noted, notesRead, notedAt⟩ :=
    readsTo_annotations sequence unnoted openedAt (by omega) (grown.resolves resolve)
  obtain ⟨kinded, kindRead, kindedAt⟩ := readsTo_declaredKind mark notedAt
  obtain ⟨entered, parenRead, ahead⟩ := readsUpTo_expect paren kindedAt
  have enteredAt := parenRead.atAhead kindedAt ahead
  obtain ⟨found, read⟩ := readsUpTo_name named enteredAt
  obtain ⟨after, nameRead, ahead⟩ := read
  have afterAt := nameRead.atAhead enteredAt ahead
  obtain ⟨left, endRead, ahead⟩ := readsUpTo_expect ends afterAt
  refine ⟨.declaration declared notes found, .declaration, left, ?_, endRead.atAhead afterAt ahead⟩
  exact Reads.bind_iff.mpr ⟨notes, noted, notesRead, Reads.bind_iff.mpr ⟨_, kinded, kindRead,
    Reads.bind_iff.mpr ⟨(), entered, parenRead, Reads.bind_iff.mpr ⟨_, after, nameRead,
      Reads.bind_iff.mpr ⟨(), left, endRead, by simp⟩⟩⟩⟩⟩

theorem readsUpTo_assertion {statement : Axiom} {notes : List Annotation} {next : Scanned}
    {first second third : List Lexeme} (opens : Opens statement.keyword input first)
    (sequence : Sequence (Spelling.Note scope.prefixes) notes first second)
    (spelled : Operands scope.prefixes statement second third) (closes : Closes third rest)
    (token : next.token = .keyword statement.keyword) (here : session.At input)
    (enough : size input < scope.limit)
    (resolve : ∀ declaration ∈ (Statement.assertion ⟨statement, notes⟩).references,
      session.store.Resolves declaration) :
    ReadsUpTo (assertion scope next) session (.assertion ⟨statement, notes⟩) rest := by
  have fewer := opens.isLocal.size_lt
  have later := (sequence.framed fun note => note.isLocal.framed).size_le
  obtain ⟨notesResolve, operandsResolve⟩ := List.forall_mem_append.mp resolve
  obtain ⟨reading, known⟩ : ∃ reading, operands scope statement.keyword = some reading := by
    cases statement <;> exact ⟨_, rfl⟩
  have read : ReadsUpTo (enclosed statement.keyword do
      pure (← annotations scope, ← reading)) session (notes, .ok statement) rest := by
    refine readsUpTo_enclosed opens here (fun opened openedAt grown => ?_) closes
    have noted := readsTo_annotations sequence (operands_unlike spelled) openedAt (by omega)
      (grown.resolves notesResolve)
    refine noted.bind fun between betweenAt grown' => ?_
    obtain ⟨_, same, read⟩ := readsTo_axiomOperands spelled closes betweenAt (by omega)
      ((grown.trans grown').resolves operandsResolve)
    rw [Option.some.inj (known.symm.trans same)]
    exact read.bind fun _ there _ => .pure there
  unfold assertion
  simp only [token, known]
  exact read.finish fun after => by simp

/-- A statement that is spelled is read, if all its references are accepted. -/
theorem readsUpTo_statement? {statement : Statement}
    (spelled : Sentence scope.prefixes statement input rest) (here : session.At input)
    (enough : size input < scope.limit)
    (resolve : ∀ declaration ∈ statement.references, session.store.Resolves declaration) :
    ∃ found, SameContent statement found ∧
      ReadsUpTo (statement? scope) session (some found) rest := by
  -- The first token is put back, whatever the statement is.
  have start {keyword : Keyword} {first : List Lexeme} (opens : Opens keyword input first) :
      ∃ next read back, Reads .lenient Reading.token session next read ∧
        Reads .lenient Reading.unscan read () back ∧ next.token = .keyword keyword ∧
        back.At input ∧ session.store.Grows back.store := by
    obtain ⟨_, ⟨literal, takes⟩, -⟩ := opens
    obtain ⟨next, read, scan, same, -⟩ := readsUpTo_token takes here
    have back : Reads .lenient Reading.unscan read () _ := Reads.unscan_iff.mpr rfl
    exact ⟨next, read, _, scan, back, by rw [Scanned.token, same], scan.unscan_at back here,
      scan.grows.trans back.grows⟩
  cases spelled with
  | declaration opens sequence inner named ends closes =>
    obtain ⟨next, read, back, scan, unscan, token, backAt, grown⟩ := start opens
    obtain ⟨found, same, after, core, ahead⟩ := readsUpTo_declaration opens sequence inner named
      ends closes backAt enough (grown.resolves resolve)
    refine ⟨found, same, after, Reads.bind_iff.mpr ⟨next, read, scan, ?_⟩, ahead⟩
    rw [if_neg (by simp [token])]
    refine Reads.bind_iff.mpr ⟨(), back, unscan, ?_⟩
    rw [if_pos token]
    exact Reads.map_iff.mpr ⟨found, core, rfl⟩
  | @assertion statement notes _ _ _ _ _ opens sequence operands closes =>
    obtain ⟨next, read, back, scan, unscan, token, backAt, grown⟩ := start opens
    obtain ⟨after, core, ahead⟩ := readsUpTo_assertion opens sequence operands closes token backAt
      enough (grown.resolves resolve)
    have notDeclaration : next.token ≠ .keyword .declaration := by
      rw [token]
      cases statement <;> simp [Axiom.keyword]
    refine ⟨_, .assertion, after, Reads.bind_iff.mpr ⟨next, read, scan, ?_⟩, ahead⟩
    rw [if_neg (by simp [token])]
    refine Reads.bind_iff.mpr ⟨(), back, unscan, ?_⟩
    rw [if_neg notDeclaration]
    exact Reads.map_iff.mpr ⟨_, core, rfl⟩

end OwlFunctional.Acceptance
