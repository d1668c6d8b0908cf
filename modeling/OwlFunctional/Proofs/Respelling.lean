import OwlFunctional.Proofs.Gaps
import OwlFunctional.Proofs.Locality

/-! Identifiers in brackets in place of short names.

An input is gone through from its start, and any of the short names in it is replaced by what it
stands for. What the input spells, it spells afterwards as well, and with the same lexemes taken.
-/

set_option autoImplicit false

namespace OwlFunctional.Spelling

open Lexeme (hyphen)

/-! ## The short names of an input -/

def localName? (label : String) (input : List Lexeme) : Option (String × String × List Lexeme) :=
  match significant input with
  | ⟨token, name⟩ :: rest => if token.isWord then some (label, name, rest) else none
  | [] => none

def shortName? : List Lexeme → Option (String × String × List Lexeme)
  | ⟨.colon, _⟩ :: rest => localName? "" rest
  | ⟨.word, label⟩ :: rest =>
    match significant rest with
    | ⟨.colon, _⟩ :: rest => localName? label rest
    | _ => none
  | _ => none

def upTo (rest input : List Lexeme) : List Lexeme := input.take (input.length - rest.length)

/-- What is passed in one step: lexemes that are kept, or a short name that is replaced. -/
structure Passage where
  identifier : Option Iri
  rest : List Lexeme

/-- A short name is replaced if it is chosen and its label is an abbreviation. The word after an at
sign or a hyphen is a piece of a language tag, so it is no label even before a colon. -/
def passage (prefixes : Prefixes) (chosen : Nat → Bool) (first : Lexeme) (input : List Lexeme) :
    Passage :=
  if first.token = .atSign ∨ first = hyphen then ⟨none, (significant input).tail⟩
  else match shortName? (first :: input) with
    | none => ⟨none, input⟩
    | some (label, name, rest) =>
      ⟨if chosen rest.length then globally prefixes label name else none, rest⟩

def Passage.written (passed : Passage) (first : Lexeme) (input : List Lexeme) : List Lexeme :=
  match passed.identifier with
  | none => first :: upTo passed.rest input
  | some iri => [⟨.iri, iri.render⟩]

theorem upTo_append (taken rest : List Lexeme) : upTo rest (taken ++ rest) = taken := by
  simp [upTo]

theorem append_upTo {rest input : List Lexeme} (suffix : rest <:+ input) :
    upTo rest input ++ rest = input := List.suffix_iff_eq_append.mp suffix

section

variable {label name : String} {first : Lexeme} {input rest : List Lexeme}

theorem Takes.ofSignificant {lexeme : Lexeme} (takes : Takes lexeme (significant input) rest) :
    Takes lexeme input rest := by
  rwa [Takes, significant_significant] at takes

theorem Takes.toSignificant {lexeme : Lexeme} (takes : Takes lexeme input rest) :
    Takes lexeme (significant input) rest := by
  rwa [Takes, significant_significant]

theorem ShortName.toSignificant (short : ShortName label name input rest) :
    ShortName label name (significant input) rest := by
  cases short with
  | labelled takes mark isWord named =>
    exact .labelled (Takes.toSignificant takes) mark isWord named
  | plain mark isWord named =>
    obtain ⟨literal, takes⟩ := mark
    exact .plain ⟨literal, Takes.toSignificant takes⟩ isWord named

theorem ShortName.ofSignificant (short : ShortName label name (significant input) rest) :
    ShortName label name input rest := by
  cases short with
  | labelled takes mark isWord named =>
    exact .labelled (Takes.ofSignificant takes) mark isWord named
  | plain mark isWord named =>
    obtain ⟨literal, takes⟩ := mark
    exact .plain ⟨literal, Takes.ofSignificant takes⟩ isWord named

theorem localName?_eq_some {found : String} {token : Token} (isWord : token.isWord = true)
    (takes : Takes ⟨token, name⟩ input rest) :
    localName? found input = some (found, name, rest) := by
  rw [localName?, takes]
  simp [isWord]

theorem shortName?_eq_some (short : ShortName label name input rest) :
    shortName? (significant input) = some (label, name, rest) := by
  cases short with
  | labelled takes mark isWord named =>
    obtain ⟨literal, colon⟩ := mark
    rw [takes, shortName?, colon]
    exact localName?_eq_some isWord named
  | plain mark isWord named =>
    obtain ⟨literal, colon⟩ := mark
    rw [colon, shortName?]
    exact localName?_eq_some isWord named

theorem exists_localName {found : String}
    (same : localName? found input = some (label, name, rest)) :
    found = label ∧ ∃ token : Token, token.isWord = true ∧ Takes ⟨token, name⟩ input rest := by
  unfold localName? at same
  split at same
  · next token local? after ahead =>
    split at same
    · next isWord =>
      obtain ⟨rfl, rfl, rfl⟩ : found = label ∧ local? = name ∧ after = rest := by simpa using same
      exact ⟨rfl, token, isWord, ahead⟩
    · simp at same
  · simp at same

theorem shortName_of_shortName? (found : shortName? input = some (label, name, rest)) :
    ShortName label name input rest := by
  unfold shortName? at found
  split at found
  · obtain ⟨rfl, token, isWord, takes⟩ := exists_localName found
    exact .plain ⟨_, significant_cons rfl _⟩ isWord takes
  · split at found
    · next colon =>
      obtain ⟨rfl, token, isWord, takes⟩ := exists_localName found
      exact .labelled (significant_cons rfl _) ⟨_, colon⟩ isWord takes
    · simp at found
  · simp at found

theorem starts_of_shortName? {found : String × String × List Lexeme}
    (same : shortName? (first :: input) = some found) :
    first.token = .word ∨ first.token = .colon := by
  obtain ⟨token, literal⟩ := first
  cases token <;> simp [shortName?] at same ⊢

theorem ShortName.suffix (short : ShortName label name (first :: input) rest) : rest <:+ input := by
  obtain ⟨taken, same, telling, -⟩ := short.isLocal
  cases taken with
  | nil => simp at telling
  | cons lexeme taken => exact ⟨taken, (List.cons.inj same).2.symm⟩

end

/-! ## Going through an input -/

/-- A passage leaves less of the input, and what is replaced is a short name. -/
theorem passage_cases (prefixes : Prefixes) (chosen : Nat → Bool) (first : Lexeme)
    (input : List Lexeme) :
    (passage prefixes chosen first input).rest <:+ input ∧
      ∀ iri ∈ (passage prefixes chosen first input).identifier, ∃ label name,
        shortName? (first :: input) =
            some (label, name, (passage prefixes chosen first input).rest) ∧
          globally prefixes label name = some iri := by
  unfold passage
  split
  · exact ⟨(List.tail_suffix (significant input)).trans (significant_suffix input), by simp⟩
  · split
    · exact ⟨List.suffix_rfl, by simp⟩
    · next label name rest found =>
      refine ⟨(shortName_of_shortName? found).suffix, fun iri known => ⟨label, name, found, ?_⟩⟩
      dsimp only at known
      split at known
      · exact known
      · simp at known

/-- The input with identifiers in place of the chosen short names. A name is told by the number of
lexemes after it. -/
def respell (prefixes : Prefixes) (chosen : Nat → Bool) : List Lexeme → List Lexeme
  | [] => []
  | first :: input =>
    (passage prefixes chosen first input).written first input ++
      respell prefixes chosen (passage prefixes chosen first input).rest
termination_by input => input.length
decreasing_by exact Nat.lt_succ_of_le (passage_cases ..).1.length_le

section

variable {prefixes : Prefixes} {chosen : Nat → Bool} {input rest : List Lexeme}

@[simp] theorem respell_nil : respell prefixes chosen [] = [] := by rw [respell]

/-- Either the first lexemes are kept, or they are a short name in place of which an identifier
stands. -/
theorem respell_cases (prefixes : Prefixes) (chosen : Nat → Bool) (first : Lexeme)
    (input : List Lexeme) :
    ∃ rest, rest <:+ input ∧
      (respell prefixes chosen (first :: input) =
          first :: upTo rest input ++ respell prefixes chosen rest ∨
        ∃ label name iri, shortName? (first :: input) = some (label, name, rest) ∧
          globally prefixes label name = some iri ∧
          respell prefixes chosen (first :: input) =
            ⟨.iri, iri.render⟩ :: respell prefixes chosen rest) := by
  obtain ⟨suffix, replaced⟩ := passage_cases prefixes chosen first input
  refine ⟨_, suffix, ?_⟩
  rw [respell, Passage.written]
  cases identifier : (passage prefixes chosen first input).identifier with
  | none => exact .inl rfl
  | some iri =>
    obtain ⟨label, name, found, known⟩ := replaced iri identifier
    exact .inr ⟨label, name, iri, found, known, rfl⟩

/-- A token that is no part of a short name, and brings no other token with it. -/
def standsAlone : Token → Bool
  | .word | .colon | .atSign | .illegal => false
  | _ => true

theorem respell_alone {lexeme : Lexeme} (alone : standsAlone lexeme.token = true)
    (input : List Lexeme) :
    respell prefixes chosen (lexeme :: input) = lexeme :: respell prefixes chosen input := by
  obtain ⟨token, literal⟩ := lexeme
  have passed : passage prefixes chosen ⟨token, literal⟩ input = ⟨none, input⟩ := by
    cases token <;> first | rfl | simp [standsAlone] at alone
  rw [respell, passed]
  simp [Passage.written, upTo]

/-- An at sign or a hyphen is kept with everything up to the next token. -/
theorem respell_joined {lexeme : Lexeme} (joins : lexeme.token = .atSign ∨ lexeme = hyphen)
    (input : List Lexeme) :
    respell prefixes chosen (lexeme :: input) =
      lexeme :: upTo (significant input).tail input ++
        respell prefixes chosen (significant input).tail := by
  rw [respell, passage, if_pos joins]
  rfl

theorem significant_respell (input : List Lexeme) :
    significant (respell prefixes chosen input) = respell prefixes chosen (significant input) := by
  induction input with
  | nil => simp
  | cons lexeme input ih =>
    cases trivia : lexeme.token.isTrivia with
    | true =>
      have alone : standsAlone lexeme.token = true := by
        cases kind : lexeme.token <;> simp [kind, Token.isTrivia, standsAlone] at trivia ⊢
      rw [respell_alone alone, significant_cons_of_trivia trivia,
        significant_cons_of_trivia trivia, ih]
    | false =>
      rw [significant_cons trivia]
      obtain ⟨rest, -, kept | ⟨_, _, iri, -, -, replaced⟩⟩ :=
        respell_cases prefixes chosen lexeme input
      · rw [kept]
        exact significant_cons trivia _
      · rw [replaced]
        exact significant_cons rfl _

/-- What goes on with a language tag did so before. -/
theorem respell_ends (ends : ∀ lexeme ∈ input.head?, ¬ ContinuesTag lexeme) :
    ∀ lexeme ∈ (respell prefixes chosen input).head?, ¬ ContinuesTag lexeme := by
  cases input with
  | nil => simp
  | cons first input =>
    obtain ⟨rest, -, kept | ⟨_, _, iri, -, -, replaced⟩⟩ :=
      respell_cases prefixes chosen first input
    · rw [kept]
      exact ends
    · rw [replaced]
      simp [ContinuesTag]

/-! ## Names and properties -/

theorem Takes.respelled {lexeme : Lexeme} (takes : Takes lexeme input rest)
    (alone : standsAlone lexeme.token = true) :
    Takes lexeme (respell prefixes chosen input) (respell prefixes chosen rest) := by
  rw [Takes, significant_respell, takes, respell_alone alone]

theorem Mark.respelled {token : Token} (mark : Mark token input rest)
    (alone : standsAlone token = true) :
    Mark token (respell prefixes chosen input) (respell prefixes chosen rest) := by
  obtain ⟨literal, takes⟩ := mark
  exact ⟨literal, Takes.respelled takes alone⟩

theorem Opens.respelled {keyword : Keyword} (opens : Opens keyword input rest) :
    Opens keyword (respell prefixes chosen input) (respell prefixes chosen rest) := by
  obtain ⟨middle, word, paren⟩ := opens
  exact ⟨_, word.respelled rfl, paren.respelled rfl⟩

theorem Closes.respelled (closes : Closes input rest) :
    Closes (respell prefixes chosen input) (respell prefixes chosen rest) :=
  Mark.respelled closes rfl

theorem Sequence.respelled {α : Type} {Item : α → List Lexeme → List Lexeme → Prop}
    (items : ∀ {value input rest}, Item value input rest →
      Item value (respell prefixes chosen input) (respell prefixes chosen rest))
    {values : List α} (sequence : Sequence Item values input rest) :
    Sequence Item values (respell prefixes chosen input) (respell prefixes chosen rest) := by
  induction sequence with
  | nil => exact .nil
  | cons first _ ih => exact .cons (items first) ih

/-- A short name is kept, or replaced by what it stands for. -/
theorem ShortName.respelled {label name : String} (short : ShortName label name input rest) :
    ShortName label name (respell prefixes chosen input) (respell prefixes chosen rest) ∨
      ∃ iri, globally prefixes label name = some iri ∧
        Takes ⟨.iri, iri.render⟩ (respell prefixes chosen input)
          (respell prefixes chosen rest) := by
  have found := shortName?_eq_some short
  obtain ⟨taken, same, telling, anywhere⟩ := short.toSignificant.isLocal
  obtain ⟨first, taken, rfl⟩ : ∃ first others, taken = first :: others :=
    List.exists_cons_of_ne_nil fun empty => telling (by rw [empty, significant_nil])
  rw [same] at found
  -- A short name starts with a word or a colon, so its first lexeme is not kept with the next one.
  have joinless : ¬ (first.token = .atSign ∨ first = hyphen) := by
    rcases starts_of_shortName? found with kind | kind
    · rintro (mark | rfl) <;> simp_all [hyphen]
    · rintro (mark | rfl) <;> simp_all [hyphen]
  have ahead : significant (respell prefixes chosen input) =
      Passage.written ⟨if chosen rest.length then globally prefixes label name else none, rest⟩
        first (taken ++ rest) ++ respell prefixes chosen rest := by
    rw [significant_respell, same, List.cons_append, respell, passage, if_neg joinless]
    rw [List.cons_append] at found
    rw [found]
  rw [Passage.written] at ahead
  dsimp only at ahead
  split at ahead
  · refine .inl (.ofSignificant ?_)
    rw [ahead, upTo_append]
    exact anywhere _
  · next iri known =>
    refine .inr ⟨iri, ?_, ahead⟩
    split at known
    · exact known
    · simp at known

theorem Name.respelled {resolve : String → String → Option Iri} {iri : Iri}
    (agrees : ∀ {label name iri}, globally prefixes label name = some iri →
      resolve label name = some iri)
    (spelled : Name resolve iri input rest) :
    Name resolve iri (respell prefixes chosen input) (respell prefixes chosen rest) := by
  cases spelled with
  | bracketed takes => exact .bracketed (Takes.respelled takes rfl)
  | short short known =>
    rcases short.respelled with short | ⟨other, same, takes⟩
    · exact .short short known
    · -- What stands in brackets now is what the name is resolved to in this place.
      obtain rfl : other = iri := Option.some.inj ((agrees same).symm.trans known)
      exact .bracketed takes

theorem resolve?_of_globally {label name : String} {iri : Iri}
    (known : globally prefixes label name = some iri) :
    prefixes.resolve? label name = some iri := by
  unfold globally at known
  split at known
  · simp at known
  · exact known

theorem ShortName.anonymousRespelled {name : String}
    (short : ShortName Grammar.anonymousMark name input rest) :
    ShortName Grammar.anonymousMark name (respell prefixes chosen input)
      (respell prefixes chosen rest) := by
  rcases short.respelled with short | ⟨iri, known, -⟩
  · exact short
  · simp [globally] at known

theorem Individual.respelled {individual : OwlFunctional.Individual}
    (spelled : Individual prefixes individual input rest) :
    Individual prefixes individual (respell prefixes chosen input)
      (respell prefixes chosen rest) := by
  cases spelled with
  | named name => exact .named (name.respelled id)
  | anonymous short => exact .anonymous short.anonymousRespelled

theorem ObjectProperty.respelled {property : ObjectPropertyExpression}
    (spelled : ObjectProperty prefixes property input rest) :
    ObjectProperty prefixes property (respell prefixes chosen input)
      (respell prefixes chosen rest) := by
  cases spelled with
  | top name => exact .top (name.respelled resolve?_of_globally)
  | bottom name => exact .bottom (name.respelled resolve?_of_globally)
  | named name => exact .named (name.respelled resolve?_of_globally)
  | inverseOf opens name closes =>
    exact .inverseOf opens.respelled (name.respelled resolve?_of_globally) closes.respelled

theorem DataProperty.respelled {property : DataPropertyExpression}
    (spelled : DataProperty prefixes property input rest) :
    DataProperty prefixes property (respell prefixes chosen input)
      (respell prefixes chosen rest) := by
  cases spelled with
  | top name => exact .top (name.respelled resolve?_of_globally)
  | bottom name => exact .bottom (name.respelled resolve?_of_globally)
  | named name => exact .named (name.respelled resolve?_of_globally)

/-! ## Literals -/

theorem TagRest.respelled {text : String} (tag : TagRest text input rest) :
    TagRest text (respell prefixes chosen input) (respell prefixes chosen rest) := by
  induction tag with
  | done ended => exact .done (respell_ends ended)
  | @hyphen token literal text input rest goesOn _ ih =>
    have telling : token.isTrivia = false := by
      rcases goesOn with word | rfl
      · cases token <;> simp [Token.isWord, Token.isTrivia] at word ⊢
      · rfl
    -- Without the hyphen the piece could be taken for the label of a short name.
    have kept : respell prefixes chosen (Lexeme.hyphen :: ⟨token, literal⟩ :: input) =
        Lexeme.hyphen :: ⟨token, literal⟩ :: respell prefixes chosen input := by
      rw [respell_joined (.inr rfl), significant_cons telling]
      simp [upTo]
    change TagRest _ (respell prefixes chosen (Lexeme.hyphen :: _)) _
    rw [kept]
    exact .hyphen goesOn ih
  | negative sign _ ih =>
    rw [respell_alone rfl]
    exact .negative sign ih

theorem Language.respelled {language : Option String} (spelled : Language language input rest) :
    Language language (respell prefixes chosen input) (respell prefixes chosen rest) := by
  cases spelled with
  | absent => exact .absent
  | @tag token literal text _ first second _ mark isWord takes tag =>
    obtain ⟨sign, mark⟩ := mark
    obtain ⟨taken, rfl, -, anywhere⟩ := Takes.isLocal takes
    have ahead : significant (respell prefixes chosen input) =
        ⟨.atSign, sign⟩ :: (taken ++ respell prefixes chosen second) := by
      rw [significant_respell, mark, respell_joined (.inl rfl), takes, List.tail_cons, upTo_append,
        List.cons_append]
    exact .tag ⟨sign, ahead⟩ isWord (anywhere _) tag.respelled

theorem Suffix.respelled {suffix : Option Iri} (spelled : Suffix prefixes suffix input rest) :
    Suffix prefixes suffix (respell prefixes chosen input) (respell prefixes chosen rest) := by
  cases spelled with
  | absent => exact .absent
  | datatype mark name =>
    exact .datatype (mark.respelled rfl) (name.respelled resolve?_of_globally)

theorem Literal.respelled {literal : OwlFunctional.Literal}
    (spelled : Literal prefixes literal input rest) :
    Literal prefixes literal (respell prefixes chosen input) (respell prefixes chosen rest) := by
  cases spelled with
  | boolean takes => exact .boolean (Takes.respelled takes rfl)
  | integer takes suffix suits =>
    exact .integer (Takes.respelled takes rfl) suffix.respelled suits
  | decimal takes suffix suits =>
    exact .decimal (Takes.respelled takes rfl) suffix.respelled suits
  | string takes value language suffix suits =>
    exact .string (Takes.respelled takes rfl) value language.respelled suffix.respelled suits

/-! ## Data ranges and class expressions -/

theorem FacetPair.respelled {pair : FacetRestriction}
    (spelled : FacetPair prefixes pair input rest) :
    FacetPair prefixes pair (respell prefixes chosen input) (respell prefixes chosen rest) := by
  obtain ⟨middle, name, literal⟩ := spelled
  exact ⟨_, name.respelled resolve?_of_globally, literal.respelled⟩

theorem Cardinality.respelled {count : UInt32} (spelled : Cardinality count input rest) :
    Cardinality count (respell prefixes chosen input) (respell prefixes chosen rest) := by
  obtain ⟨literal, takes, value⟩ := spelled
  exact ⟨literal, Takes.respelled takes rfl, value⟩

end

mutual

theorem DataRange.respelled {prefixes : Prefixes} {chosen : Nat → Bool} :
    ∀ {range : OwlFunctional.DataRange} {input rest : List Lexeme},
    DataRange prefixes range input rest →
    DataRange prefixes range (respell prefixes chosen input) (respell prefixes chosen rest)
  | _, _, _, .builtin known name => .builtin known (name.respelled resolve?_of_globally)
  | _, _, _, .named foreign name => .named foreign (name.respelled resolve?_of_globally)
  | _, _, _, .restriction opens name pairs enough closes =>
    .restriction opens.respelled (name.respelled resolve?_of_globally)
      (pairs.respelled fun pair => pair.respelled) enough closes.respelled
  | _, _, _, .junction opens operands enough closes =>
    .junction opens.respelled (DataRange.eachRespelled operands) enough closes.respelled
  | _, _, _, .complementOf opens operand closes =>
    .complementOf opens.respelled (DataRange.respelled operand) closes.respelled
  | _, _, _, .oneOf opens values enough closes =>
    .oneOf opens.respelled (values.respelled fun value => value.respelled) enough closes.respelled

theorem DataRange.eachRespelled {prefixes : Prefixes} {chosen : Nat → Bool} :
    ∀ {ranges : List OwlFunctional.DataRange} {input rest : List Lexeme},
    Sequence (DataRange prefixes) ranges input rest →
    Sequence (DataRange prefixes) ranges (respell prefixes chosen input)
      (respell prefixes chosen rest)
  | _, _, _, .nil => .nil
  | _, _, _, .cons first others =>
    .cons (DataRange.respelled first) (DataRange.eachRespelled others)

end

mutual

theorem Class.respelled {prefixes : Prefixes} {chosen : Nat → Bool} :
    ∀ {expression : ClassExpression} {input rest : List Lexeme},
    Class prefixes expression input rest →
    Class prefixes expression (respell prefixes chosen input) (respell prefixes chosen rest)
  | _, _, _, .thing name => .thing (name.respelled resolve?_of_globally)
  | _, _, _, .nothing name => .nothing (name.respelled resolve?_of_globally)
  | _, _, _, .named name => .named (name.respelled resolve?_of_globally)
  | _, _, _, .junction opens operands enough closes =>
    .junction opens.respelled (Class.eachRespelled operands) enough closes.respelled
  | _, _, _, .complementOf opens operand closes =>
    .complementOf opens.respelled (Class.respelled operand) closes.respelled
  | _, _, _, .oneOf opens individuals enough closes =>
    .oneOf opens.respelled (individuals.respelled fun one => one.respelled) enough closes.respelled
  | _, _, _, .objectQuantified opens property filler closes =>
    .objectQuantified opens.respelled property.respelled (Class.respelled filler) closes.respelled
  | _, _, _, .objectHasValue opens property individual closes =>
    .objectHasValue opens.respelled property.respelled individual.respelled closes.respelled
  | _, _, _, .objectHasSelf opens property closes =>
    .objectHasSelf opens.respelled property.respelled closes.respelled
  | _, _, _, .objectCardinality opens count property closes =>
    .objectCardinality opens.respelled count.respelled property.respelled closes.respelled
  | _, _, _, .objectQualified opens count property filler closes =>
    .objectQualified opens.respelled count.respelled property.respelled (Class.respelled filler)
      closes.respelled
  | _, _, _, .dataQuantified opens property range closes =>
    .dataQuantified opens.respelled property.respelled range.respelled closes.respelled
  | _, _, _, .dataHasValue opens property value closes =>
    .dataHasValue opens.respelled property.respelled value.respelled closes.respelled
  | _, _, _, .dataCardinality opens count property closes =>
    .dataCardinality opens.respelled count.respelled property.respelled closes.respelled
  | _, _, _, .dataQualified opens count property range closes =>
    .dataQualified opens.respelled count.respelled property.respelled range.respelled
      closes.respelled

theorem Class.eachRespelled {prefixes : Prefixes} {chosen : Nat → Bool} :
    ∀ {classes : List ClassExpression} {input rest : List Lexeme},
    Sequence (Class prefixes) classes input rest →
    Sequence (Class prefixes) classes (respell prefixes chosen input) (respell prefixes chosen rest)
  | _, _, _, .nil => .nil
  | _, _, _, .cons first others => .cons (Class.respelled first) (Class.eachRespelled others)

end

/-! ## Statements -/

section

variable {prefixes : Prefixes} {chosen : Nat → Bool} {input rest : List Lexeme}

theorem AnnotationSubject.respelled {subject : OwlFunctional.AnnotationSubject}
    (spelled : AnnotationSubject prefixes subject input rest) :
    AnnotationSubject prefixes subject (respell prefixes chosen input)
      (respell prefixes chosen rest) := by
  cases spelled with
  | iri name => exact .iri (name.respelled id)
  | anonymous short => exact .anonymous short.anonymousRespelled

theorem AnnotationValue.respelled {value : OwlFunctional.AnnotationValue}
    (spelled : AnnotationValue prefixes value input rest) :
    AnnotationValue prefixes value (respell prefixes chosen input)
      (respell prefixes chosen rest) := by
  cases spelled with
  | iri name => exact .iri (name.respelled id)
  | anonymous short => exact .anonymous short.anonymousRespelled
  | literal content => exact .literal content.respelled

theorem Note.respelled {note : Annotation} (spelled : Note prefixes note input rest) :
    Note prefixes note (respell prefixes chosen input) (respell prefixes chosen rest) := by
  obtain ⟨first, second, third, opens, name, value, closes⟩ := spelled
  exact ⟨_, _, _, opens.respelled, name.respelled resolve?_of_globally, value.respelled,
    closes.respelled⟩

theorem Operands.respelled {statement : Axiom} (spelled : Operands prefixes statement input rest) :
    Operands prefixes statement (respell prefixes chosen input) (respell prefixes chosen rest) := by
  cases spelled with
  | subClassOf sub super => exact .subClassOf sub.respelled super.respelled
  | equivalentClasses classes enough =>
    exact .equivalentClasses (Class.eachRespelled classes) enough
  | disjointClasses classes enough => exact .disjointClasses (Class.eachRespelled classes) enough
  | subObjectPropertyOf sub super => exact .subObjectPropertyOf sub.respelled super.respelled
  | inverseObjectProperties one other =>
    exact .inverseObjectProperties one.respelled other.respelled
  | objectPropertyDomain property domain =>
    exact .objectPropertyDomain property.respelled domain.respelled
  | objectPropertyRange property range =>
    exact .objectPropertyRange property.respelled range.respelled
  | objectCharacteristic property => exact .objectCharacteristic property.respelled
  | subDataPropertyOf sub super => exact .subDataPropertyOf sub.respelled super.respelled
  | dataPropertyDomain property domain =>
    exact .dataPropertyDomain property.respelled domain.respelled
  | dataPropertyRange property range => exact .dataPropertyRange property.respelled range.respelled
  | functionalDataProperty property => exact .functionalDataProperty property.respelled
  | classAssertion expression individual =>
    exact .classAssertion expression.respelled individual.respelled
  | objectPropertyAssertion property source target =>
    exact .objectPropertyAssertion property.respelled source.respelled target.respelled
  | negativeObjectPropertyAssertion property source target =>
    exact .negativeObjectPropertyAssertion property.respelled source.respelled target.respelled
  | dataPropertyAssertion property source target =>
    exact .dataPropertyAssertion property.respelled source.respelled target.respelled
  | differentIndividuals individuals enough =>
    exact .differentIndividuals (individuals.respelled fun one => one.respelled) enough
  | annotationAssertion name subject value =>
    exact .annotationAssertion (name.respelled resolve?_of_globally) subject.respelled
      value.respelled
  | annotationPropertyDomain name domain =>
    exact .annotationPropertyDomain (name.respelled resolve?_of_globally)
      (domain.respelled resolve?_of_globally)
  | annotationPropertyRange name range =>
    exact .annotationPropertyRange (name.respelled resolve?_of_globally)
      (range.respelled resolve?_of_globally)

theorem Sentence.respelled {statement : Statement}
    (spelled : Sentence prefixes statement input rest) :
    Sentence prefixes statement (respell prefixes chosen input) (respell prefixes chosen rest) := by
  cases spelled with
  | declaration opens notes inner name ends closes =>
    exact .declaration opens.respelled (notes.respelled fun note => note.respelled) inner.respelled
      (name.respelled resolve?_of_globally) ends.respelled closes.respelled
  | assertion opens notes operands closes =>
    exact .assertion opens.respelled (notes.respelled fun note => note.respelled)
      operands.respelled closes.respelled

end

end OwlFunctional.Spelling
