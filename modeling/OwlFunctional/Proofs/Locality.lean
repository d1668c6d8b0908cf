import OwlFunctional.Proofs.Spelling.Document

/-! What is spelled takes lexemes off the front of an input, whatever follows them.

The exception are literals: a language tag takes as many pieces as directly follow each other, so
the next lexeme decides where one ends. Inside of a construct that lexeme is part of it.
-/

set_option autoImplicit false

namespace OwlFunctional.Spelling

/-- How many lexemes an input has from the first one on that is not trivia. -/
def size (input : List Lexeme) : Nat := (significant input).length

theorem size_le_length (input : List Lexeme) : size input ≤ input.length :=
  (significant_suffix input).length_le

theorem size_congr {input other : List Lexeme} (same : significant input = significant other) :
    size input = size other := by
  rw [size, size, same]

theorem significant_append {taken : List Lexeme} (telling : significant taken ≠ [])
    (rest : List Lexeme) : significant (taken ++ rest) = significant taken ++ rest := by
  induction taken with
  | nil => simp at telling
  | cons lexeme taken ih =>
    cases trivia : lexeme.token.isTrivia with
    | true =>
      rw [significant_cons_of_trivia trivia] at telling
      rw [List.cons_append, significant_cons_of_trivia trivia, ih telling,
        significant_cons_of_trivia trivia]
    | false =>
      rw [List.cons_append, significant_cons trivia, significant_cons trivia, List.cons_append]

theorem significant_append_of_silent {taken : List Lexeme} (silent : significant taken = [])
    (rest : List Lexeme) : significant (taken ++ rest) = significant rest := by
  induction taken with
  | nil => rfl
  | cons lexeme taken ih =>
    cases trivia : lexeme.token.isTrivia with
    | true =>
      rw [significant_cons_of_trivia trivia] at silent
      rw [List.cons_append, significant_cons_of_trivia trivia, ih silent]
    | false =>
      rw [significant_cons trivia] at silent
      simp at silent

theorem exists_silent (input : List Lexeme) :
    ∃ silent, significant silent = [] ∧ input = silent ++ significant input := by
  induction input with
  | nil => exact ⟨[], rfl, rfl⟩
  | cons lexeme input ih =>
    cases trivia : lexeme.token.isTrivia with
    | true =>
      obtain ⟨silent, none, same⟩ := ih
      refine ⟨lexeme :: silent, by rw [significant_cons_of_trivia trivia, none], ?_⟩
      rw [significant_cons_of_trivia trivia, List.cons_append, ← same]
    | false => exact ⟨[], rfl, by rw [significant_cons trivia, List.nil_append]⟩

/-- The relation holds between the lexemes it takes off an input and nothing, and before any
other rest just as well. -/
def Local (Spells : List Lexeme → List Lexeme → Prop) (input rest : List Lexeme) : Prop :=
  ∃ taken, input = taken ++ rest ∧ significant taken ≠ [] ∧
    ∀ other, Spells (taken ++ other) other

/-- The relation holds before any other rest that starts with the same lexeme. -/
def Framed (Spells : List Lexeme → List Lexeme → Prop) (input rest : List Lexeme) : Prop :=
  ∃ taken, input = taken ++ rest ∧
    ∀ other : List Lexeme, other.head? = rest.head? → Spells (taken ++ other) other

section

variable {First Second Spells : List Lexeme → List Lexeme → Prop} {input middle rest : List Lexeme}

theorem Local.framed (here : Local Spells input rest) : Framed Spells input rest := by
  obtain ⟨taken, same, -, anywhere⟩ := here
  exact ⟨taken, same, fun other _ => anywhere other⟩

theorem Framed.ends (here : Framed Spells input rest) : rest <:+ input := by
  obtain ⟨taken, rfl, -⟩ := here
  exact List.suffix_append taken rest

theorem Local.imp (here : Local First input rest)
    (implied : ∀ {input rest}, First input rest → Second input rest) :
    Local Second input rest := by
  obtain ⟨taken, same, telling, anywhere⟩ := here
  exact ⟨taken, same, telling, fun other => implied (anywhere other)⟩

theorem Framed.imp (here : Framed First input rest)
    (implied : ∀ {input rest}, First input rest → Second input rest) :
    Framed Second input rest := by
  obtain ⟨taken, same, anywhere⟩ := here
  exact ⟨taken, same, fun other alike => implied (anywhere other alike)⟩

theorem head?_append_congr (taken : List Lexeme) {other rest : List Lexeme}
    (alike : other.head? = rest.head?) : (taken ++ other).head? = (taken ++ rest).head? := by
  rw [List.head?_append, List.head?_append, alike]

theorem Framed.append (before : Framed First input middle) (after : Framed Second middle rest) :
    Framed (fun input rest => ∃ middle, First input middle ∧ Second middle rest) input rest := by
  obtain ⟨taken, rfl, first⟩ := before
  obtain ⟨more, rfl, second⟩ := after
  refine ⟨taken ++ more, by simp, fun other alike => ⟨more ++ other, ?_, second other alike⟩⟩
  rw [List.append_assoc]
  exact first _ (head?_append_congr more alike)

section

variable {Third : List Lexeme → List Lexeme → Prop} {later : List Lexeme}

theorem Framed.pair (first : Framed First input middle) (second : Framed Second middle rest)
    (make : ∀ {input middle rest}, First input middle → Second middle rest → Spells input rest) :
    Framed Spells input rest :=
  (first.append second).imp fun ⟨_, first, second⟩ => make first second

theorem Framed.triple (first : Framed First input middle) (second : Framed Second middle later)
    (third : Framed Third later rest)
    (make : ∀ {input middle later rest}, First input middle → Second middle later →
      Third later rest → Spells input rest) : Framed Spells input rest :=
  (first.append (second.append third)).imp fun ⟨_, first, _, second, third⟩ =>
    make first second third

end

/-- What comes last fixes where all of it ends. -/
theorem Framed.appendLocal (before : Framed First input middle) (after : Local Second middle rest) :
    Local (fun input rest => ∃ middle, First input middle ∧ Second middle rest) input rest := by
  obtain ⟨taken, rfl, first⟩ := before
  obtain ⟨more, rfl, telling, second⟩ := after
  refine ⟨taken ++ more, by simp, ?_, fun other => ⟨more ++ other, ?_, second other⟩⟩
  · by_cases silent : significant taken = []
    · rwa [significant_append_of_silent silent]
    · rw [significant_append silent]
      simp [silent]
  · rw [List.append_assoc]
    refine first _ ?_
    cases more with
    | nil => simp at telling
    | cons lexeme more => rfl

theorem Local.size_lt (here : Local Spells input rest) : size rest < size input := by
  obtain ⟨taken, rfl, telling, -⟩ := here
  have some : 0 < (significant taken).length := List.length_pos_iff.mpr telling
  have most := size_le_length rest
  have whole : size (taken ++ rest) = (significant taken).length + rest.length := by
    rw [size, significant_append telling, List.length_append]
  omega

theorem Framed.size_le (here : Framed Spells input rest) : size rest ≤ size input := by
  obtain ⟨taken, rfl, -⟩ := here
  by_cases silent : significant taken = []
  · exact Nat.le_of_eq (size_congr (significant_append_of_silent silent rest).symm)
  · have most := size_le_length rest
    have whole : size (taken ++ rest) = (significant taken).length + rest.length := by
      rw [size, significant_append silent, List.length_append]
    omega

end

variable {input rest : List Lexeme}

theorem Takes.isLocal {lexeme : Lexeme} (takes : Takes lexeme input rest) :
    Local (Takes lexeme) input rest := by
  have telling := not_trivia_of_significant takes
  obtain ⟨silent, none, same⟩ := exists_silent input
  have passed (others : List Lexeme) : Takes lexeme (silent ++ lexeme :: others) others := by
    rw [Takes, significant_append_of_silent none, significant_cons telling]
  refine ⟨silent ++ [lexeme], ?_, ?_, ?_⟩
  · rw [takes] at same
    simpa using same
  · rw [passed []]
    simp
  · intro other
    simpa using passed other

theorem Mark.isLocal {token : Token} (mark : Mark token input rest) :
    Local (Mark token) input rest := by
  obtain ⟨literal, takes⟩ := mark
  exact (Takes.isLocal takes).imp fun takes => ⟨literal, takes⟩

theorem Opens.isLocal {keyword : Keyword} (opens : Opens keyword input rest) :
    Local (Opens keyword) input rest := by
  obtain ⟨middle, word, paren⟩ := opens
  exact (Mark.isLocal word).framed.appendLocal (Mark.isLocal paren)

theorem Closes.isLocal (closes : Closes input rest) : Local Closes input rest :=
  Mark.isLocal closes

section

variable {First Second Third Spells : List Lexeme → List Lexeme → Prop} {keyword : Keyword}
  {start middle later last : List Lexeme}

theorem Local.enclosed (opens : Opens keyword input start) (first : Framed First start last)
    (closes : Closes last rest)
    (make : ∀ {input start last rest}, Opens keyword input start → First start last →
      Closes last rest → Spells input rest) : Local Spells input rest :=
  (opens.isLocal.framed.appendLocal (first.appendLocal closes.isLocal)).imp
    fun ⟨_, opens, _, first, closes⟩ => make opens first closes

theorem Local.enclosedPair (opens : Opens keyword input start) (first : Framed First start middle)
    (second : Framed Second middle last) (closes : Closes last rest)
    (make : ∀ {input start middle last rest}, Opens keyword input start → First start middle →
      Second middle last → Closes last rest → Spells input rest) : Local Spells input rest :=
  .enclosed opens (first.append second) closes fun opens ⟨_, first, second⟩ closes =>
    make opens first second closes

theorem Local.enclosedTriple (opens : Opens keyword input start)
    (first : Framed First start middle) (second : Framed Second middle later)
    (third : Framed Third later last) (closes : Closes last rest)
    (make : ∀ {input start middle later last rest}, Opens keyword input start →
      First start middle → Second middle later → Third later last → Closes last rest →
      Spells input rest) : Local Spells input rest :=
  .enclosedPair opens first (second.append third) closes
    fun opens first ⟨_, second, third⟩ closes => make opens first second third closes

end

theorem Sequence.framed {α : Type} {Item : α → List Lexeme → List Lexeme → Prop}
    (items : ∀ {value input rest}, Item value input rest → Framed (Item value) input rest)
    {values : List α} (sequence : Sequence Item values input rest) :
    Framed (Sequence Item values) input rest := by
  induction sequence with
  | nil => exact ⟨[], rfl, fun other _ => .nil⟩
  | cons first _ ih =>
    exact .pair (items first) ih .cons

/-! ## Names and properties -/

theorem ShortName.isLocal {label name : String} (short : ShortName label name input rest) :
    Local (ShortName label name) input rest := by
  cases short with
  | labelled takes mark isWord named =>
    have parts := (Takes.isLocal takes).framed.appendLocal
      ((Mark.isLocal mark).framed.appendLocal (Takes.isLocal named))
    exact parts.imp fun ⟨_, takes, _, mark, named⟩ => .labelled takes mark isWord named
  | plain mark isWord named =>
    have parts := (Mark.isLocal mark).framed.appendLocal (Takes.isLocal named)
    exact parts.imp fun ⟨_, mark, named⟩ => .plain mark isWord named

theorem Name.isLocal {resolve : String → String → Option Iri} {iri : Iri}
    (name : Name resolve iri input rest) : Local (Name resolve iri) input rest := by
  cases name with
  | bracketed takes => exact (Takes.isLocal takes).imp .bracketed
  | short short known => exact short.isLocal.imp fun short => .short short known

theorem Individual.isLocal {prefixes : Prefixes} {individual : OwlFunctional.Individual}
    (spelled : Individual prefixes individual input rest) :
    Local (Individual prefixes individual) input rest := by
  cases spelled with
  | named name => exact name.isLocal.imp .named
  | anonymous short => exact short.isLocal.imp .anonymous

theorem ObjectProperty.isLocal {prefixes : Prefixes} {property : ObjectPropertyExpression}
    (spelled : ObjectProperty prefixes property input rest) :
    Local (ObjectProperty prefixes property) input rest := by
  cases spelled with
  | top name => exact name.isLocal.imp .top
  | bottom name => exact name.isLocal.imp .bottom
  | named name => exact name.isLocal.imp .named
  | inverseOf opens name closes =>
    exact .enclosed opens name.isLocal.framed closes .inverseOf

theorem DataProperty.isLocal {prefixes : Prefixes} {property : DataPropertyExpression}
    (spelled : DataProperty prefixes property input rest) :
    Local (DataProperty prefixes property) input rest := by
  cases spelled with
  | top name => exact name.isLocal.imp .top
  | bottom name => exact name.isLocal.imp .bottom
  | named name => exact name.isLocal.imp .named

/-! ## Literals -/

theorem TagRest.framed {text : String} (tag : TagRest text input rest) :
    Framed (TagRest text) input rest := by
  induction tag with
  | done ended => exact ⟨[], rfl, fun other alike => .done (by rwa [List.nil_append, alike])⟩
  | hyphen goesOn _ ih =>
    obtain ⟨taken, rfl, anywhere⟩ := ih
    exact ⟨_ :: _ :: taken, rfl, fun other alike => .hyphen goesOn (anywhere other alike)⟩
  | negative sign _ ih =>
    obtain ⟨taken, rfl, anywhere⟩ := ih
    exact ⟨_ :: taken, rfl, fun other alike => .negative sign (anywhere other alike)⟩

theorem Language.framed {language : Option String} (spelled : Language language input rest) :
    Framed (Language language) input rest := by
  cases spelled with
  | absent => exact ⟨[], rfl, fun other _ => .absent⟩
  | tag mark isWord takes tag =>
    exact .triple (Mark.isLocal mark).framed (Takes.isLocal takes).framed tag.framed
      fun mark takes tag => .tag mark isWord takes tag

theorem Suffix.framed {prefixes : Prefixes} {suffix : Option Iri}
    (spelled : Suffix prefixes suffix input rest) : Framed (Suffix prefixes suffix) input rest := by
  cases spelled with
  | absent => exact ⟨[], rfl, fun other _ => .absent⟩
  | datatype mark name =>
    exact .pair (Mark.isLocal mark).framed name.isLocal.framed .datatype

theorem Literal.framed {prefixes : Prefixes} {literal : OwlFunctional.Literal}
    (spelled : Literal prefixes literal input rest) : Framed (Literal prefixes literal) input rest := by
  cases spelled with
  | boolean takes => exact (Takes.isLocal takes).framed.imp .boolean
  | integer takes suffix suits =>
    exact .pair (Takes.isLocal takes).framed suffix.framed
      fun takes suffix => .integer takes suffix suits
  | decimal takes suffix suits =>
    exact .pair (Takes.isLocal takes).framed suffix.framed
      fun takes suffix => .decimal takes suffix suits
  | string takes value language suffix suits =>
    exact .triple (Takes.isLocal takes).framed language.framed suffix.framed
      fun takes language suffix => .string takes value language suffix suits

theorem Literal.size_lt {prefixes : Prefixes} {literal : OwlFunctional.Literal}
    (spelled : Literal prefixes literal input rest) : size rest < size input := by
  cases spelled with
  | boolean takes => exact (Takes.isLocal takes).size_lt
  | integer takes suffix => exact Nat.lt_of_le_of_lt suffix.framed.size_le (Takes.isLocal takes).size_lt
  | decimal takes suffix => exact Nat.lt_of_le_of_lt suffix.framed.size_le (Takes.isLocal takes).size_lt
  | string takes value language suffix =>
    have later := Nat.le_trans suffix.framed.size_le language.framed.size_le
    exact Nat.lt_of_le_of_lt later (Takes.isLocal takes).size_lt

/-! ## Data ranges and class expressions -/

theorem FacetPair.framed {prefixes : Prefixes} {pair : FacetRestriction}
    (spelled : FacetPair prefixes pair input rest) :
    Framed (FacetPair prefixes pair) input rest := by
  obtain ⟨middle, name, literal⟩ := spelled
  exact name.isLocal.framed.append literal.framed

theorem Cardinality.isLocal {count : UInt32} (spelled : Cardinality count input rest) :
    Local (Cardinality count) input rest := by
  obtain ⟨literal, takes, value⟩ := spelled
  exact (Takes.isLocal takes).imp fun takes => ⟨literal, takes, value⟩

mutual

theorem DataRange.isLocal {prefixes : Prefixes} : ∀ {range : OwlFunctional.DataRange}
    {input rest : List Lexeme}, DataRange prefixes range input rest →
    Local (DataRange prefixes range) input rest
  | _, _, _, .builtin known name => name.isLocal.imp (.builtin known)
  | _, _, _, .named foreign name => name.isLocal.imp (.named foreign)
  | _, _, _, .restriction opens name pairs enough closes =>
    .enclosedPair opens name.isLocal.framed (pairs.framed fun pair => pair.framed) closes
      fun opens name pairs closes => .restriction opens name pairs enough closes
  | _, _, _, .junction opens operands enough closes =>
    .enclosed opens (DataRange.sequenceFramed operands) closes
      fun opens operands closes => .junction opens operands enough closes
  | _, _, _, .complementOf opens operand closes =>
    .enclosed opens (DataRange.isLocal operand).framed closes .complementOf
  | _, _, _, .oneOf opens values enough closes =>
    .enclosed opens (values.framed fun value => value.framed) closes
      fun opens values closes => .oneOf opens values enough closes

theorem DataRange.sequenceFramed {prefixes : Prefixes} : ∀ {ranges : List OwlFunctional.DataRange}
    {input rest : List Lexeme}, Sequence (DataRange prefixes) ranges input rest →
    Framed (Sequence (DataRange prefixes) ranges) input rest
  | _, _, _, .nil => ⟨[], rfl, fun _ _ => .nil⟩
  | _, _, _, .cons first others =>
    .pair (DataRange.isLocal first).framed (DataRange.sequenceFramed others) .cons

end

mutual

theorem Class.isLocal {prefixes : Prefixes} : ∀ {expression : ClassExpression}
    {input rest : List Lexeme}, Class prefixes expression input rest →
    Local (Class prefixes expression) input rest
  | _, _, _, .thing name => name.isLocal.imp .thing
  | _, _, _, .nothing name => name.isLocal.imp .nothing
  | _, _, _, .named name => name.isLocal.imp .named
  | _, _, _, .junction opens operands enough closes =>
    .enclosed opens (Class.sequenceFramed operands) closes
      fun opens operands closes => .junction opens operands enough closes
  | _, _, _, .complementOf opens operand closes =>
    .enclosed opens (Class.isLocal operand).framed closes .complementOf
  | _, _, _, .oneOf opens individuals enough closes =>
    .enclosed opens (individuals.framed fun one => one.isLocal.framed) closes
      fun opens individuals closes => .oneOf opens individuals enough closes
  | _, _, _, .objectQuantified opens property filler closes =>
    .enclosedPair opens property.isLocal.framed (Class.isLocal filler).framed closes
      .objectQuantified
  | _, _, _, .objectHasValue opens property value closes =>
    .enclosedPair opens property.isLocal.framed value.isLocal.framed closes .objectHasValue
  | _, _, _, .objectHasSelf opens property closes =>
    .enclosed opens property.isLocal.framed closes .objectHasSelf
  | _, _, _, .objectCardinality opens count property closes =>
    .enclosedPair opens count.isLocal.framed property.isLocal.framed closes .objectCardinality
  | _, _, _, .objectQualified opens count property filler closes =>
    .enclosedTriple opens count.isLocal.framed property.isLocal.framed
      (Class.isLocal filler).framed closes .objectQualified
  | _, _, _, .dataQuantified opens property range closes =>
    .enclosedPair opens property.isLocal.framed range.isLocal.framed closes .dataQuantified
  | _, _, _, .dataHasValue opens property value closes =>
    .enclosedPair opens property.isLocal.framed value.framed closes .dataHasValue
  | _, _, _, .dataCardinality opens count property closes =>
    .enclosedPair opens count.isLocal.framed property.isLocal.framed closes .dataCardinality
  | _, _, _, .dataQualified opens count property range closes =>
    .enclosedTriple opens count.isLocal.framed property.isLocal.framed range.isLocal.framed closes
      .dataQualified

theorem Class.sequenceFramed {prefixes : Prefixes} : ∀ {classes : List ClassExpression}
    {input rest : List Lexeme}, Sequence (Class prefixes) classes input rest →
    Framed (Sequence (Class prefixes) classes) input rest
  | _, _, _, .nil => ⟨[], rfl, fun _ _ => .nil⟩
  | _, _, _, .cons first others =>
    .pair (Class.isLocal first).framed (Class.sequenceFramed others) .cons

end

/-! ## Annotations -/

section

variable {input rest : List Lexeme} {prefixes : Prefixes}

theorem AnnotationSubject.isLocal {subject : OwlFunctional.AnnotationSubject}
    (spelled : AnnotationSubject prefixes subject input rest) :
    Local (AnnotationSubject prefixes subject) input rest := by
  cases spelled with
  | iri name => exact name.isLocal.imp .iri
  | anonymous short => exact short.isLocal.imp .anonymous

theorem AnnotationValue.framed {value : OwlFunctional.AnnotationValue}
    (spelled : AnnotationValue prefixes value input rest) :
    Framed (AnnotationValue prefixes value) input rest := by
  cases spelled with
  | iri name => exact name.isLocal.framed.imp .iri
  | anonymous short => exact short.isLocal.framed.imp .anonymous
  | literal content => exact content.framed.imp .literal

theorem Note.isLocal {note : Annotation}
    (spelled : Note prefixes note input rest) :
    Local (Note prefixes note) input rest := by
  obtain ⟨_, _, _, opens, name, value, closes⟩ := spelled
  exact .enclosedPair opens name.isLocal.framed value.framed closes
    fun opens name value closes => ⟨_, _, _, opens, name, value, closes⟩

/-! ## Statements -/

theorem Operands.framed {statement : Axiom} (spelled : Operands prefixes statement input rest) :
    Framed (Operands prefixes statement) input rest := by
  -- Whether a literal ends shows in the lexeme after it, so only the parenthesis makes this local.
  cases spelled with
  | subClassOf sub super => exact .pair sub.isLocal.framed super.isLocal.framed .subClassOf
  | equivalentClasses classes enough =>
    exact (Class.sequenceFramed classes).imp fun classes => .equivalentClasses classes enough
  | disjointClasses classes enough =>
    exact (Class.sequenceFramed classes).imp fun classes => .disjointClasses classes enough
  | subObjectPropertyOf sub super =>
    exact .pair sub.isLocal.framed super.isLocal.framed .subObjectPropertyOf
  | inverseObjectProperties one two =>
    exact .pair one.isLocal.framed two.isLocal.framed .inverseObjectProperties
  | objectPropertyDomain property domain =>
    exact .pair property.isLocal.framed domain.isLocal.framed .objectPropertyDomain
  | objectPropertyRange property range =>
    exact .pair property.isLocal.framed range.isLocal.framed .objectPropertyRange
  | objectCharacteristic property => exact property.isLocal.framed.imp .objectCharacteristic
  | subDataPropertyOf sub super =>
    exact .pair sub.isLocal.framed super.isLocal.framed .subDataPropertyOf
  | dataPropertyDomain property domain =>
    exact .pair property.isLocal.framed domain.isLocal.framed .dataPropertyDomain
  | dataPropertyRange property range =>
    exact .pair property.isLocal.framed range.isLocal.framed .dataPropertyRange
  | functionalDataProperty property => exact property.isLocal.framed.imp .functionalDataProperty
  | classAssertion expression individual =>
    exact .pair expression.isLocal.framed individual.isLocal.framed .classAssertion
  | objectPropertyAssertion property source target =>
    exact .triple property.isLocal.framed source.isLocal.framed target.isLocal.framed
      .objectPropertyAssertion
  | negativeObjectPropertyAssertion property source target =>
    exact .triple property.isLocal.framed source.isLocal.framed target.isLocal.framed
      .negativeObjectPropertyAssertion
  | dataPropertyAssertion property source target =>
    exact .triple property.isLocal.framed source.isLocal.framed target.framed .dataPropertyAssertion
  | differentIndividuals individuals enough =>
    exact (individuals.framed fun one => one.isLocal.framed).imp
      fun individuals => .differentIndividuals individuals enough
  | annotationAssertion name subject value =>
    exact .triple name.isLocal.framed subject.isLocal.framed value.framed .annotationAssertion
  | annotationPropertyDomain name domain =>
    exact .pair name.isLocal.framed domain.isLocal.framed .annotationPropertyDomain
  | annotationPropertyRange name range =>
    exact .pair name.isLocal.framed range.isLocal.framed .annotationPropertyRange

theorem Sentence.isLocal {statement : Statement}
    (spelled : Sentence prefixes statement input rest) :
    Local (Sentence prefixes statement) input rest := by
  cases spelled with
  | declaration opens notes inner name ends closes =>
    have noted := notes.framed fun note => note.isLocal.framed
    exact (opens.isLocal.framed.appendLocal (noted.appendLocal (inner.isLocal.framed.appendLocal
      (name.isLocal.framed.appendLocal (ends.isLocal.framed.appendLocal closes.isLocal))))).imp
      fun ⟨_, opens, _, notes, _, inner, _, name, _, ends, closes⟩ =>
        .declaration opens notes inner name ends closes
  | assertion opens notes operands closes =>
    have noted := notes.framed fun note => note.isLocal.framed
    exact (opens.isLocal.framed.appendLocal (noted.appendLocal
      (operands.framed.appendLocal closes.isLocal))).imp
      fun ⟨_, opens, _, notes, _, operands, closes⟩ => .assertion opens notes operands closes

/-! ## Documents -/

theorem Label.framed {label : String} (spelled : Label label input rest) :
    Framed (Label label) input rest := by
  cases spelled with
  | empty => exact ⟨[], rfl, fun other _ => .empty⟩
  | word takes => exact (Takes.isLocal takes).framed.imp .word

theorem Bound.isLocal {binding : Binding} (spelled : Bound binding input rest) :
    Local (Bound binding) input rest := by
  obtain ⟨_, _, _, _, _, opens, label, colon, equals, space, closes⟩ := spelled
  exact (opens.isLocal.framed.appendLocal (label.framed.appendLocal
    ((Mark.isLocal colon).framed.appendLocal ((Mark.isLocal equals).framed.appendLocal
      ((Takes.isLocal space).framed.appendLocal closes.isLocal))))).imp
    fun ⟨_, opens, _, label, _, colon, _, equals, _, space, closes⟩ =>
      ⟨_, _, _, _, _, opens, label, colon, equals, space, closes⟩

theorem Header.isLocal {iri : Iri} {version : Option Iri} (spelled : Header iri version input rest) :
    Local (Header iri version) input rest := by
  obtain ⟨_, _, opens, takes, versioned⟩ := spelled
  cases version with
  | none =>
    obtain rfl : _ = rest := versioned
    exact (opens.isLocal.framed.appendLocal (Takes.isLocal takes)).imp
      fun ⟨_, opens, takes⟩ => ⟨_, _, opens, takes, rfl⟩
  | some version =>
    exact (opens.isLocal.framed.appendLocal ((Takes.isLocal takes).framed.appendLocal
      (Takes.isLocal versioned))).imp
      fun ⟨_, opens, _, takes, versioned⟩ => ⟨_, _, opens, takes, versioned⟩

end

end OwlFunctional.Spelling

namespace OwlFunctional

/-- What is within the bounds of a session is within them without its leading trivia. -/
theorem Session.At.size_lt {σ : Type} {session : Session σ} {input : List Lexeme} {bound : Nat}
    (here : session.At input) (enough : session.stream.ahead.length < bound) :
    Spelling.size input < bound := by
  rw [Spelling.size, ← here.alike]
  exact Nat.lt_of_le_of_lt (significant_suffix _).length_le enough

end OwlFunctional
