import OwlFunctional.Proofs.Printing.Expression
import OwlFunctional.Proofs.Reserved
import OwlFunctional.Proofs.Values

/-! The literals of a store fit their datatypes.

Whatever comes of a document, no literal is left at any depth of its axioms and annotations that a
built-in datatype of numbers has with another value than a number. Conversely, a string is read with
every datatype that it fits.
-/

set_option autoImplicit false

namespace OwlFunctional

/-! ## The literals of statements -/

namespace DataRange

mutual

def literals : DataRange → List Literal
  | builtin _ | named _ => []
  | restriction _ pairs => pairs.map (·.value)
  | junction _ operands => literalsOfAll operands
  | complementOf operand => literals operand
  | oneOf values => values

def literalsOfAll : List DataRange → List Literal
  | [] => []
  | operand :: others => literals operand ++ literalsOfAll others

end

theorem literalsOfAll_eq (operands : List DataRange) :
    literalsOfAll operands = operands.flatMap literals := by
  induction operands with
  | nil => rfl
  | cons operand others ih => rw [literalsOfAll, ih, List.flatMap_cons]

end DataRange

namespace ClassExpression

mutual

def literals : ClassExpression → List Literal
  | thing | nothing | named _ | oneOf _ => []
  | junction _ operands => literalsOfAll operands
  | complementOf operand => literals operand
  | objectQuantified _ _ filler => literals filler
  | objectHasValue .. | objectHasSelf _ | objectCardinality .. => []
  | objectQualified _ _ _ filler => literals filler
  | dataQuantified _ _ range => range.literals
  | dataHasValue _ value => [value]
  | dataCardinality .. => []
  | dataQualified _ _ _ range => range.literals

def literalsOfAll : List ClassExpression → List Literal
  | [] => []
  | operand :: others => literals operand ++ literalsOfAll others

end

theorem literalsOfAll_eq (operands : List ClassExpression) :
    literalsOfAll operands = operands.flatMap literals := by
  induction operands with
  | nil => rfl
  | cons operand others ih => rw [literalsOfAll, ih, List.flatMap_cons]

end ClassExpression

def AnnotationValue.literals : AnnotationValue → List Literal
  | .iri _ | .anonymous _ => []
  | .literal content => [content]

def Annotation.literals (note : Annotation) : List Literal := note.value.literals

def Axiom.literals : Axiom → List Literal
  | .subClassOf sub super => sub.literals ++ super.literals
  | .equivalentClasses classes | .disjointClasses classes =>
    classes.flatMap ClassExpression.literals
  | .subObjectPropertyOf .. | .inverseObjectProperties .. => []
  | .objectPropertyDomain _ domain => domain.literals
  | .objectPropertyRange _ range => range.literals
  | .objectCharacteristic .. | .subDataPropertyOf .. => []
  | .dataPropertyDomain _ domain => domain.literals
  | .dataPropertyRange _ range => range.literals
  | .functionalDataProperty _ => []
  | .classAssertion expression _ => expression.literals
  | .objectPropertyAssertion .. | .negativeObjectPropertyAssertion .. => []
  | .dataPropertyAssertion _ _ target => [target]
  | .differentIndividuals _ => []
  | .annotationAssertion _ _ value => value.literals
  | .annotationPropertyDomain .. | .annotationPropertyRange .. => []

def Statement.literals : Statement → List Literal
  | .declaration _ notes _ => notes.flatMap Annotation.literals
  | .assertion annotated =>
    annotated.annotations.flatMap Annotation.literals ++ annotated.statement.literals

/-- The literals of all axioms, of their annotations, and of those of declarations. -/
def Catalogue.literals (catalogue : Catalogue) : List Literal :=
  catalogue.axioms.toList.flatMap (fun annotated => (Statement.assertion annotated).literals) ++
    catalogue.annotated.toList.flatMap fun entry => entry.2.flatMap Annotation.literals

/-- The literals of a catalogue are those of its statements. -/
theorem Catalogue.mem_literals {catalogue : Catalogue} {statements : List Statement}
    (axioms : catalogue.axioms.toList = statements.filterMap Statement.asserted?)
    (annotated : catalogue.annotated.toList = statements.filterMap Statement.noted?)
    {literal : Literal} (member : literal ∈ catalogue.literals) :
    ∃ statement ∈ statements, literal ∈ statement.literals := by
  rw [literals, axioms, annotated, List.mem_append, List.mem_flatMap, List.mem_flatMap] at member
  rcases member with ⟨annotated, listed, member⟩ | ⟨entry, listed, member⟩
  · obtain ⟨statement, stated, same⟩ := List.mem_filterMap.mp listed
    cases statement with
    | declaration => simp [Statement.asserted?] at same
    | assertion given =>
      obtain rfl := Option.some.inj same
      exact ⟨_, stated, member⟩
  · obtain ⟨statement, stated, same⟩ := List.mem_filterMap.mp listed
    cases statement with
    | declaration declared notes position =>
      refine ⟨_, stated, ?_⟩
      simp only [Statement.noted?] at same
      split at same
      · simp at same
      · obtain rfl := Option.some.inj same
        exact member
    | assertion => simp [Statement.noted?] at same

/-! ## Values that fit -/

/-- A built-in datatype of numbers has a number as its value, without a language. -/
structure Literal.Fitting (literal : Literal) : Prop where
  whole : Vocabulary.datatypeKind? literal.datatype = some .whole →
    Text.isWhole literal.value.toList = true ∧ literal.language = none
  decimal : Vocabulary.datatypeKind? literal.datatype = some .decimal →
    Text.isDecimal literal.value.toList = true ∧ literal.language = none

def AllFit (literals : List Literal) : Prop := ∀ literal ∈ literals, literal.Fitting

namespace AllFit

variable {α : Type} {first second : List Literal}

theorem none : AllFit [] := by simp [AllFit]

theorem single {literal : Literal} (fitting : literal.Fitting) : AllFit [literal] := by
  simpa [AllFit] using fitting

theorem append (one : AllFit first) (two : AllFit second) : AllFit (first ++ second) :=
  List.forall_mem_append.mpr ⟨one, two⟩

theorem flatMap {values : List α} {literals : α → List Literal}
    (each : ∀ value ∈ values, AllFit (literals value)) : AllFit (values.flatMap literals) := by
  intro literal member
  obtain ⟨value, listed, member⟩ := List.mem_flatMap.mp member
  exact each value listed literal member

end AllFit

namespace Spelling

open Lexeme

variable {input rest : List Lexeme} {prefixes : Prefixes}

theorem Literal.fitting {literal : OwlFunctional.Literal}
    (spelled : Literal prefixes literal input rest) (formed : AllFormed input) :
    literal.Fitting where
  whole known := by simpa [fits_text_iff, and_comm] using spelled.suits formed _ known
  decimal known := by simpa [fits_text_iff, and_comm] using spelled.suits formed _ known

theorem Literal.all_fit {values : List OwlFunctional.Literal}
    (spelled : Sequence (Literal prefixes) values input rest) (formed : AllFormed input) :
    AllFit values :=
  spelled.forall_of_formed formed Literal.framed Literal.fitting

theorem FacetPair.all_fit {pairs : List FacetRestriction}
    (spelled : Sequence (FacetPair prefixes) pairs input rest) (formed : AllFormed input) :
    AllFit (pairs.map (·.value)) := by
  refine List.forall_mem_map.mpr (spelled.forall_of_formed formed FacetPair.framed ?_)
  rintro pair input rest ⟨middle, name, value⟩ formed
  exact value.fitting (name.isLocal.formed formed)

mutual

theorem DataRange.all_fit : ∀ {range : OwlFunctional.DataRange} {input rest : List Lexeme},
    DataRange prefixes range input rest → AllFormed input → AllFit range.literals
  | _, _, _, .builtin _ _, _ => .none
  | _, _, _, .named _ _, _ => .none
  | _, _, _, .restriction opens name pairs _ _, formed =>
    FacetPair.all_fit pairs (name.isLocal.formed (opens.isLocal.formed formed))
  | _, _, _, .junction opens operands _ _, formed => by
    rw [DataRange.literals, DataRange.literalsOfAll_eq]
    exact .flatMap (DataRange.each_fits operands (opens.isLocal.formed formed))
  | _, _, _, .complementOf opens operand _, formed => by
    rw [DataRange.literals]
    exact DataRange.all_fit operand (opens.isLocal.formed formed)
  | _, _, _, .oneOf opens values _ _, formed =>
    Literal.all_fit values (opens.isLocal.formed formed)

theorem DataRange.each_fits : ∀ {ranges : List OwlFunctional.DataRange}
    {input rest : List Lexeme}, Sequence (DataRange prefixes) ranges input rest →
    AllFormed input → ∀ range ∈ ranges, AllFit range.literals
  | _, _, _, .nil, _ => by simp
  | _, _, _, .cons first others, formed => by
    have later := DataRange.each_fits others (first.isLocal.formed formed)
    exact List.forall_mem_cons.mpr ⟨DataRange.all_fit first formed, later⟩

end

mutual

theorem Class.all_fit : ∀ {expression : ClassExpression} {input rest : List Lexeme},
    Class prefixes expression input rest → AllFormed input → AllFit expression.literals
  | _, _, _, .thing _, _ => .none
  | _, _, _, .nothing _, _ => .none
  | _, _, _, .named _, _ => .none
  | _, _, _, .junction opens operands _ _, formed => by
    rw [ClassExpression.literals, ClassExpression.literalsOfAll_eq]
    exact .flatMap (Class.each_fits operands (opens.isLocal.formed formed))
  | _, _, _, .complementOf opens operand _, formed => by
    rw [ClassExpression.literals]
    exact Class.all_fit operand (opens.isLocal.formed formed)
  | _, _, _, .oneOf _ _ _ _, _ => .none
  | _, _, _, .objectQuantified opens property filler _, formed => by
    rw [ClassExpression.literals]
    exact Class.all_fit filler (property.isLocal.formed (opens.isLocal.formed formed))
  | _, _, _, .objectHasValue _ _ _ _, _ => .none
  | _, _, _, .objectHasSelf _ _ _, _ => .none
  | _, _, _, .objectCardinality _ _ _ _, _ => .none
  | _, _, _, .objectQualified opens count property filler _, formed => by
    have formedSecond := count.isLocal.formed (opens.isLocal.formed formed)
    rw [ClassExpression.literals]
    exact Class.all_fit filler (property.isLocal.formed formedSecond)
  | _, _, _, .dataQuantified opens property range _, formed =>
    range.all_fit (property.isLocal.formed (opens.isLocal.formed formed))
  | _, _, _, .dataHasValue opens property value _, formed =>
    .single (value.fitting (property.isLocal.formed (opens.isLocal.formed formed)))
  | _, _, _, .dataCardinality _ _ _ _, _ => .none
  | _, _, _, .dataQualified opens count property range _, formed => by
    have formedSecond := count.isLocal.formed (opens.isLocal.formed formed)
    exact range.all_fit (property.isLocal.formed formedSecond)

theorem Class.each_fits : ∀ {classes : List ClassExpression} {input rest : List Lexeme},
    Sequence (Class prefixes) classes input rest → AllFormed input →
    ∀ expression ∈ classes, AllFit expression.literals
  | _, _, _, .nil, _ => by simp
  | _, _, _, .cons first others, formed => by
    have later := Class.each_fits others (first.isLocal.formed formed)
    exact List.forall_mem_cons.mpr ⟨Class.all_fit first formed, later⟩

end

theorem AnnotationValue.all_fit {value : OwlFunctional.AnnotationValue}
    (spelled : AnnotationValue prefixes value input rest) (formed : AllFormed input) :
    AllFit value.literals := by
  cases spelled with
  | iri name | anonymous short => exact .none
  | literal content => exact .single (content.fitting formed)

theorem Note.all_fit {notes : List Annotation}
    (spelled : Sequence (Note prefixes) notes input rest) (formed : AllFormed input) :
    AllFit (notes.flatMap Annotation.literals) := by
  refine .flatMap (spelled.forall_of_formed formed (fun note => note.isLocal.framed) ?_)
  rintro note input rest ⟨_, _, _, opens, name, value, -⟩ formed
  exact value.all_fit (name.isLocal.formed (opens.isLocal.formed formed))

theorem Operands.all_fit {statement : Axiom} (spelled : Operands prefixes statement input rest)
    (formed : AllFormed input) : AllFit statement.literals := by
  cases spelled with
  | subClassOf sub super =>
    exact (sub.all_fit formed).append (super.all_fit (sub.isLocal.formed formed))
  | equivalentClasses classes _ | disjointClasses classes _ =>
    exact .flatMap (Class.each_fits classes formed)
  | objectPropertyDomain property domain | objectPropertyRange property domain =>
    exact domain.all_fit (property.isLocal.formed formed)
  | dataPropertyDomain property domain => exact domain.all_fit (property.isLocal.formed formed)
  | dataPropertyRange property range => exact range.all_fit (property.isLocal.formed formed)
  | classAssertion expression individual => exact expression.all_fit formed
  | dataPropertyAssertion property source target =>
    have formedSource := property.isLocal.formed formed
    exact .single (target.fitting (source.isLocal.formed formedSource))
  | annotationAssertion name subject value =>
    exact value.all_fit (subject.isLocal.formed (name.isLocal.formed formed))
  | subObjectPropertyOf | inverseObjectProperties | objectCharacteristic | subDataPropertyOf
  | functionalDataProperty | objectPropertyAssertion | negativeObjectPropertyAssertion
  | differentIndividuals | annotationPropertyDomain | annotationPropertyRange => exact .none

theorem Sentence.all_fit {statement : Statement}
    (spelled : Sentence prefixes statement input rest) (formed : AllFormed input) :
    AllFit statement.literals := by
  cases spelled with
  | declaration opens notes => exact Note.all_fit notes (opens.isLocal.formed formed)
  | assertion opens notes operands closes =>
    have formedNotes := opens.isLocal.formed formed
    have formedOperands := (notes.framed fun note => note.isLocal.framed).formed formedNotes
    exact (Note.all_fit notes formedNotes).append (operands.all_fit formedOperands)

end Spelling

open Lexeme Spelling

/-- Whatever comes of a document, all literals that it leaves fit their datatypes. -/
theorem Document.read_literals_fit (settings : Settings) (source : String) (input : Input) :
    AllFit (read settings source input).session.store.literals := by
  intro literal member
  obtain ⟨prefixes, statements, first, rest, suffix, sequence, axioms, annotated, -⟩ :=
    read_states settings source input
  obtain ⟨statement, stated, member⟩ := Catalogue.mem_literals axioms annotated member
  have formed : AllFormed first := fun lexeme member =>
    lexemesOf_formed _ lexeme (suffix.subset member)
  exact sequence.forall_of_formed formed (fun sentence => sentence.isLocal.framed)
    (fun sentence formed => sentence.all_fit formed) statement stated literal member

/-- A string with perhaps a language, and a datatype: it is read if the datatype is no built-in one
of numbers or if the value is a number of that form without a language. Nothing else is read. -/
theorem quoted_read_iff {σ : Type} [Store σ] {prefixes : Prefixes} {limit : Nat}
    {session : Session σ} {value : String} {tag : Option String} {datatype : Iri} {named : String}
    (tagged : ∀ language ∈ tag, ReadableTag language)
    (readable : ReadableName .lenient prefixes datatype named)
    (ahead : session.stream.ahead =
      lexemesOf (Literal.quote value ++ Literal.renderLanguage tag ++ "^^" ++ named).toList)
    (enough : Document.limit session ≤ limit) (literal : OwlFunctional.Literal) :
    (∃ after, Reads .lenient (Grammar.literal ⟨prefixes, limit⟩) session literal after) ↔
      literal = ⟨value, datatype, tag⟩ ∧
        (Vocabulary.datatypeKind? datatype = none ∨
          Vocabulary.datatypeKind? datatype = some .text ∨
          tag = none ∧ (Vocabulary.datatypeKind? datatype = some .whole ∧
              Text.isWhole value.toList = true ∨
            Vocabulary.datatypeKind? datatype = some .decimal ∧
              Text.isDecimal value.toList = true)) := by
  obtain ⟨rest, draft, vets⟩ := quoted_draft value tagged (fun _ _ => rfl) readable
  rw [← ahead] at draft vets
  rw [typed_draft_read_iff draft vets (Session.atLexemes ahead).noEof enough, and_comm]
  refine and_congr_right fun _ => ?_
  cases known : Vocabulary.datatypeKind? datatype with
  | none => simp [Suits, known]
  | some expected =>
    rw [suits_iff known, fits_text_iff]
    simp

/-- Whatever comes of a document, each literal that it leaves with a built-in datatype of numbers has
a number of that form as its value, and no language. And a string with perhaps a language is read
with every datatype that this allows, as nothing but its own value, language and datatype. -/
theorem literals_fit_datatypes :
    (∀ (settings : Settings) (source : String) (input : Input),
      ∀ literal ∈ (Document.read settings source input).session.store.literals,
        (Vocabulary.datatypeKind? literal.datatype = some .whole →
          Text.isWhole literal.value.toList = true ∧ literal.language = none) ∧
        (Vocabulary.datatypeKind? literal.datatype = some .decimal →
          Text.isDecimal literal.value.toList = true ∧ literal.language = none)) ∧
    ∀ {σ : Type} [Store σ] {prefixes : Prefixes} {limit : Nat} {session : Session σ}
      {value : String} {tag : Option String} {datatype : Iri} {named : String},
      (∀ language ∈ tag, ReadableTag language) → ReadableName .lenient prefixes datatype named →
      session.stream.ahead =
        lexemesOf (Literal.quote value ++ Literal.renderLanguage tag ++ "^^" ++ named).toList →
      Document.limit session ≤ limit → ∀ literal,
        (∃ after, Reads .lenient (Grammar.literal ⟨prefixes, limit⟩) session literal after) ↔
          literal = ⟨value, datatype, tag⟩ ∧
            (Vocabulary.datatypeKind? datatype = none ∨
              Vocabulary.datatypeKind? datatype = some .text ∨
              tag = none ∧ (Vocabulary.datatypeKind? datatype = some .whole ∧
                  Text.isWhole value.toList = true ∨
                Vocabulary.datatypeKind? datatype = some .decimal ∧
                  Text.isDecimal value.toList = true)) := by
  refine ⟨fun settings source input literal member => ?_, quoted_read_iff⟩
  have fitting := Document.read_literals_fit settings source input literal member
  exact ⟨fitting.whole, fitting.decimal⟩

/-- A number with zeros before it, without a language and with one. -/
theorem literals_fit_datatypes_byte :
    let prefixes : Prefixes := Prefixes.empty.insert "" Vocabulary.xsdSpace
    let session (tag : Option String) : Session Catalogue :=
      ⟨.ofInput "" (.ofString
        (Literal.quote "+007" ++ Literal.renderLanguage tag ++ "^^" ++ ":byte )")), .empty .explicit⟩
    let plain := session none
    let tagged := session "en"
    (∃ after, Reads .lenient (Grammar.literal ⟨prefixes, Document.limit plain⟩) plain
      ⟨"+007", Vocabulary.xsd "byte", none⟩ after) ∧
    ∀ literal, ¬ ∃ after, Reads .lenient (Grammar.literal ⟨prefixes, Document.limit tagged⟩) tagged
      literal after := by
  intro prefixes session plain tagged
  have kind : Vocabulary.datatypeKind? (Vocabulary.xsd "byte") = some .whole := by decide
  have readable : ReadableName .lenient prefixes (Vocabulary.xsd "byte") ":byte )" :=
    ⟨9, ⟨{ source := "", ahead := lexemesOf ":byte )".toList, looksAtEnd := true
           pending := none }, .empty .explicit⟩, _, _, rfl, rfl⟩
  have english : ∀ language ∈ some "en", ReadableTag language := by
    rintro _ ⟨⟩
    exact ⟨.lenient, ⟨.empty, 9⟩, "@en",
      ⟨{ source := "", ahead := lexemesOf "@en".toList, looksAtEnd := true, pending := none },
        .empty .explicit⟩, _, rfl, rfl⟩
  have free : ∀ language ∈ (none : Option String), ReadableTag language := by simp
  have written (tag : Option String) : (session tag).stream.ahead = lexemesOf
      (Literal.quote "+007" ++ Literal.renderLanguage tag ++ "^^" ++ ":byte )").toList :=
    congrArg lexemesOf (Input.chars_ofString _)
  constructor
  · exact (literals_fit_datatypes.2 free readable (written _) (Nat.le_refl _) _).mpr
      ⟨rfl, .inr (.inr ⟨rfl, .inl ⟨kind, by decide⟩⟩)⟩
  · intro literal read
    have suits := (literals_fit_datatypes.2 english readable (written _) (Nat.le_refl _)
      literal).mp read
    simp [kind] at suits

end OwlFunctional
