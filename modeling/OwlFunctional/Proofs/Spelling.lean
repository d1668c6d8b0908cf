import OwlFunctional.Grammar.Expression
import OwlFunctional.Proofs.Cursor

/-! The grammar of names, literals and expressions, as relations between values and lexemes.

Each relation `R value input rest` says that `input` starts with lexemes that spell the value,
and that `rest` follows them. Trivia may stand before every lexeme but the pieces of a language
tag. The relations know nothing of what is declared.
-/

set_option autoImplicit false

namespace OwlFunctional.Spelling

def Mark (token : Token) (input rest : List Lexeme) : Prop :=
  ∃ literal, Takes ⟨token, literal⟩ input rest

def Opens (keyword : Keyword) (input rest : List Lexeme) : Prop :=
  ∃ middle, Mark (.keyword keyword) input middle ∧ Mark .openParen middle rest

def Closes (input rest : List Lexeme) : Prop := Mark .closeParen input rest

inductive Sequence {α : Type} (Item : α → List Lexeme → List Lexeme → Prop) :
    List α → List Lexeme → List Lexeme → Prop where
  | nil {input : List Lexeme} : Sequence Item [] input input
  | cons {first : α} {others : List α} {input middle rest : List Lexeme} :
      Item first input middle → Sequence Item others middle rest →
      Sequence Item (first :: others) input rest

/-! ## Names -/

inductive ShortName : String → String → List Lexeme → List Lexeme → Prop where
  | labelled {label name : String} {token : Token} {input first second rest : List Lexeme} :
      Takes ⟨.word, label⟩ input first → Mark .colon first second → token.isWord = true →
      Takes ⟨token, name⟩ second rest → ShortName label name input rest
  | plain {name : String} {token : Token} {input first rest : List Lexeme} :
      Mark .colon input first → token.isWord = true → Takes ⟨token, name⟩ first rest →
      ShortName "" name input rest

inductive Name (resolve : String → String → Option Iri) :
    Iri → List Lexeme → List Lexeme → Prop where
  | bracketed {iri : Iri} {input rest : List Lexeme} :
      Takes ⟨.iri, iri.render⟩ input rest → Name resolve iri input rest
  | short {label name : String} {iri : Iri} {input rest : List Lexeme} :
      ShortName label name input rest → resolve label name = some iri →
      Name resolve iri input rest

/-- What short names stand for in the place of an individual: the label of anonymous individuals
is no abbreviation there. -/
def globally (prefixes : Prefixes) (label name : String) : Option Iri :=
  if label = Grammar.anonymousMark then none else prefixes.resolve? label name

inductive Individual (prefixes : Prefixes) :
    OwlFunctional.Individual → List Lexeme → List Lexeme → Prop where
  | named {entity : Entity .namedIndividual} {input rest : List Lexeme} :
      Name (globally prefixes) entity.iri input rest → Individual prefixes (.named entity) input rest
  | anonymous {label : BlankLabel} {input rest : List Lexeme} :
      ShortName Grammar.anonymousMark label.text input rest →
      Individual prefixes (.anonymous label) input rest

/-! ## Properties -/

inductive ObjectProperty (prefixes : Prefixes) :
    ObjectPropertyExpression → List Lexeme → List Lexeme → Prop where
  | top {input rest : List Lexeme} :
      Name prefixes.resolve? Vocabulary.topObjectProperty input rest →
      ObjectProperty prefixes .top input rest
  | bottom {input rest : List Lexeme} :
      Name prefixes.resolve? Vocabulary.bottomObjectProperty input rest →
      ObjectProperty prefixes .bottom input rest
  | named {entity : Entity .objectProperty} {input rest : List Lexeme} :
      Name prefixes.resolve? entity.iri input rest → ObjectProperty prefixes (.named entity) input rest
  | inverseOf {entity : Entity .objectProperty} {input first second rest : List Lexeme} :
      Opens .objectInverseOf input first → Name prefixes.resolve? entity.iri first second →
      Closes second rest → ObjectProperty prefixes (.inverseOf entity) input rest

inductive DataProperty (prefixes : Prefixes) :
    DataPropertyExpression → List Lexeme → List Lexeme → Prop where
  | top {input rest : List Lexeme} :
      Name prefixes.resolve? Vocabulary.topDataProperty input rest →
      DataProperty prefixes .top input rest
  | bottom {input rest : List Lexeme} :
      Name prefixes.resolve? Vocabulary.bottomDataProperty input rest →
      DataProperty prefixes .bottom input rest
  | named {entity : Entity .dataProperty} {input rest : List Lexeme} :
      Name prefixes.resolve? entity.iri input rest → DataProperty prefixes (.named entity) input rest

/-! ## Literals -/

/-- A lexeme that goes on with a language tag where it directly follows one. -/
def ContinuesTag (lexeme : Lexeme) : Prop :=
  lexeme = ⟨.illegal, "-"⟩ ∨ lexeme.token = .integer ∧ lexeme.literal.toList.head? = some '-'

/-- The rest of a language tag: as many pieces as directly follow each other. -/
inductive TagRest : String → List Lexeme → List Lexeme → Prop where
  | done {input : List Lexeme} : (∀ lexeme ∈ input.head?, ¬ ContinuesTag lexeme) →
      TagRest "" input input
  | hyphen {token : Token} {literal text : String} {input rest : List Lexeme} :
      token.isWord = true ∨ token = .integer → TagRest text input rest →
      TagRest ("-" ++ literal ++ text) (⟨.illegal, "-"⟩ :: ⟨token, literal⟩ :: input) rest
  | negative {literal text : String} {input rest : List Lexeme} :
      literal.toList.head? = some '-' → TagRest text input rest →
      TagRest (literal ++ text) (⟨.integer, literal⟩ :: input) rest

inductive Language : Option String → List Lexeme → List Lexeme → Prop where
  | absent {input : List Lexeme} : Language none input input
  | tag {token : Token} {literal text : String} {input first second rest : List Lexeme} :
      Mark .atSign input first → token.isWord = true → Takes ⟨token, literal⟩ first second →
      TagRest text second rest → Language (some (literal ++ text)) input rest

inductive Suffix (prefixes : Prefixes) : Option Iri → List Lexeme → List Lexeme → Prop where
  | absent {input : List Lexeme} : Suffix prefixes none input input
  | datatype {iri : Iri} {input first rest : List Lexeme} :
      Mark .doubleCaret input first → Name prefixes.resolve? iri first rest →
      Suffix prefixes (some iri) input rest

/-- A written form gives a value of the expected form: the same one, or a number in quotes that
has no language. -/
inductive Fits : LiteralKind → LiteralKind → String → Option String → Prop where
  | same {kind : LiteralKind} {value : String} {language : Option String} :
      Fits kind kind value language
  | whole {value : String} : Text.isWhole value.toList = true → Fits .text .whole value none
  | decimal {value : String} : Text.isDecimal value.toList = true → Fits .text .decimal value none

/-- A datatype that needs no declaration is given a value of its form. Others take any value. -/
def Suits (written : LiteralKind) (value : String) (language : Option String)
    (datatype : Iri) : Prop :=
  ∀ expected, Vocabulary.datatypeKind? datatype = some expected →
    Fits written expected value language

def stringDatatype : Option String → Iri
  | none => Vocabulary.string
  | some _ => Vocabulary.langString

inductive Literal (prefixes : Prefixes) :
    OwlFunctional.Literal → List Lexeme → List Lexeme → Prop where
  | boolean {value : Bool} {literal : String} {input rest : List Lexeme} :
      Takes ⟨.boolean value, literal⟩ input rest →
      Literal prefixes ⟨literal, Vocabulary.boolean, none⟩ input rest
  | integer {value : String} {suffix : Option Iri} {input first rest : List Lexeme} :
      Takes ⟨.integer, value⟩ input first → Suffix prefixes suffix first rest →
      (∀ datatype ∈ suffix, Suits .whole value none datatype) →
      Literal prefixes ⟨value, suffix.getD Vocabulary.integer, none⟩ input rest
  | decimal {value : String} {suffix : Option Iri} {input first rest : List Lexeme} :
      Takes ⟨.decimal, value⟩ input first → Suffix prefixes suffix first rest →
      (∀ datatype ∈ suffix, Suits .decimal value none datatype) →
      Literal prefixes ⟨value, suffix.getD Vocabulary.decimal, none⟩ input rest
  | string {inside value : String} {language : Option String} {suffix : Option Iri}
      {input first second rest : List Lexeme} :
      Takes ⟨.string, inside⟩ input first → value = .ofList (Text.unescape inside.toList) →
      Language language first second → Suffix prefixes suffix second rest →
      (∀ datatype ∈ suffix, Suits .text value language datatype) →
      Literal prefixes ⟨value, suffix.getD (stringDatatype language), language⟩ input rest

/-! ## Data ranges and class expressions -/

def FacetPair (prefixes : Prefixes) (pair : FacetRestriction) (input rest : List Lexeme) : Prop :=
  ∃ middle, Name prefixes.resolve? pair.facet.iri input middle ∧
    Literal prefixes pair.value middle rest

inductive DataRange (prefixes : Prefixes) :
    OwlFunctional.DataRange → List Lexeme → List Lexeme → Prop where
  | builtin {iri : Iri} {input rest : List Lexeme} : Vocabulary.isBuiltinDatatype iri = true →
      Name prefixes.resolve? iri input rest → DataRange prefixes (.builtin iri) input rest
  | named {entity : Entity .datatype} {input rest : List Lexeme} :
      Vocabulary.isBuiltinDatatype entity.iri = false →
      Name prefixes.resolve? entity.iri input rest → DataRange prefixes (.named entity) input rest
  | restriction {iri : Iri} {pairs : List FacetRestriction}
      {input first second third rest : List Lexeme} :
      Opens .datatypeRestriction input first → Name prefixes.resolve? iri first second →
      Sequence (FacetPair prefixes) pairs second third → 1 ≤ pairs.length → Closes third rest →
      DataRange prefixes (.restriction iri pairs) input rest
  | junction {joined : Junction} {operands : List OwlFunctional.DataRange}
      {input first second rest : List Lexeme} :
      Opens (.dataJunction joined) input first →
      Sequence (DataRange prefixes) operands first second → 2 ≤ operands.length →
      Closes second rest → DataRange prefixes (.junction joined operands) input rest
  | complementOf {operand : OwlFunctional.DataRange} {input first second rest : List Lexeme} :
      Opens .dataComplementOf input first → DataRange prefixes operand first second →
      Closes second rest → DataRange prefixes (.complementOf operand) input rest
  | oneOf {values : List OwlFunctional.Literal} {input first second rest : List Lexeme} :
      Opens .dataOneOf input first → Sequence (Literal prefixes) values first second →
      1 ≤ values.length → Closes second rest → DataRange prefixes (.oneOf values) input rest

def Cardinality (count : UInt32) (input rest : List Lexeme) : Prop :=
  ∃ literal, Takes ⟨.integer, literal⟩ input rest ∧ Text.cardinality? literal.toList = some count

inductive Class (prefixes : Prefixes) :
    ClassExpression → List Lexeme → List Lexeme → Prop where
  | thing {input rest : List Lexeme} : Name prefixes.resolve? Vocabulary.thing input rest →
      Class prefixes .thing input rest
  | nothing {input rest : List Lexeme} : Name prefixes.resolve? Vocabulary.nothing input rest →
      Class prefixes .nothing input rest
  | named {entity : Entity .owlClass} {input rest : List Lexeme} :
      Name prefixes.resolve? entity.iri input rest → Class prefixes (.named entity) input rest
  | junction {joined : Junction} {operands : List ClassExpression}
      {input first second rest : List Lexeme} :
      Opens (.objectJunction joined) input first →
      Sequence (Class prefixes) operands first second → 2 ≤ operands.length →
      Closes second rest → Class prefixes (.junction joined operands) input rest
  | complementOf {operand : ClassExpression} {input first second rest : List Lexeme} :
      Opens .objectComplementOf input first → Class prefixes operand first second →
      Closes second rest → Class prefixes (.complementOf operand) input rest
  | oneOf {individuals : List OwlFunctional.Individual} {input first second rest : List Lexeme} :
      Opens .objectOneOf input first → Sequence (Individual prefixes) individuals first second →
      1 ≤ individuals.length → Closes second rest → Class prefixes (.oneOf individuals) input rest
  | objectQuantified {quantifier : Quantifier} {property : ObjectPropertyExpression}
      {filler : ClassExpression} {input first second third rest : List Lexeme} :
      Opens (.objectQuantifier quantifier) input first →
      ObjectProperty prefixes property first second → Class prefixes filler second third →
      Closes third rest → Class prefixes (.objectQuantified quantifier property filler) input rest
  | objectHasValue {property : ObjectPropertyExpression} {individual : OwlFunctional.Individual}
      {input first second third rest : List Lexeme} :
      Opens .objectHasValue input first → ObjectProperty prefixes property first second →
      Individual prefixes individual second third → Closes third rest →
      Class prefixes (.objectHasValue property individual) input rest
  | objectHasSelf {property : ObjectPropertyExpression} {input first second rest : List Lexeme} :
      Opens .objectHasSelf input first → ObjectProperty prefixes property first second →
      Closes second rest → Class prefixes (.objectHasSelf property) input rest
  | objectCardinality {bound : Bound} {count : UInt32} {property : ObjectPropertyExpression}
      {input first second third rest : List Lexeme} :
      Opens (.objectCardinality bound) input first → Cardinality count first second →
      ObjectProperty prefixes property second third → Closes third rest →
      Class prefixes (.objectCardinality bound count property) input rest
  | objectQualified {bound : Bound} {count : UInt32} {property : ObjectPropertyExpression}
      {filler : ClassExpression} {input first second third fourth rest : List Lexeme} :
      Opens (.objectCardinality bound) input first → Cardinality count first second →
      ObjectProperty prefixes property second third → Class prefixes filler third fourth →
      Closes fourth rest → Class prefixes (.objectQualified bound count property filler) input rest
  | dataQuantified {quantifier : Quantifier} {property : DataPropertyExpression}
      {range : OwlFunctional.DataRange} {input first second third rest : List Lexeme} :
      Opens (.dataQuantifier quantifier) input first →
      DataProperty prefixes property first second → DataRange prefixes range second third →
      Closes third rest → Class prefixes (.dataQuantified quantifier property range) input rest
  | dataHasValue {property : DataPropertyExpression} {value : OwlFunctional.Literal}
      {input first second third rest : List Lexeme} :
      Opens .dataHasValue input first → DataProperty prefixes property first second →
      Literal prefixes value second third → Closes third rest →
      Class prefixes (.dataHasValue property value) input rest
  | dataCardinality {bound : Bound} {count : UInt32} {property : DataPropertyExpression}
      {input first second third rest : List Lexeme} :
      Opens (.dataCardinality bound) input first → Cardinality count first second →
      DataProperty prefixes property second third → Closes third rest →
      Class prefixes (.dataCardinality bound count property) input rest
  | dataQualified {bound : Bound} {count : UInt32} {property : DataPropertyExpression}
      {range : OwlFunctional.DataRange} {input first second third fourth rest : List Lexeme} :
      Opens (.dataCardinality bound) input first → Cardinality count first second →
      DataProperty prefixes property second third → DataRange prefixes range third fourth →
      Closes fourth rest → Class prefixes (.dataQualified bound count property range) input rest

end OwlFunctional.Spelling
