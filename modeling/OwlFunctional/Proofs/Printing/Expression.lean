import OwlFunctional.Proofs.Printing.Literal

/-! What was spelled is spelled again by its written form: expressions. -/

set_option autoImplicit false

namespace OwlFunctional

open Lexeme

theorem Keyword.isWord_text (keyword : Keyword) :
    IsWord keyword.text ∧ Token.ofWord keyword.text = .keyword keyword := by
  have table : ∀ keyword ∈ all, keyword.text.toList.head?.any Text.startsWord = true ∧
      keyword.text.toList.tail.all Text.continuesWord = true ∧
      Token.ofWord keyword.text = .keyword keyword := by decide +kernel
  obtain ⟨starts, goesOn, reserved⟩ := table keyword keyword.mem_all
  refine ⟨?_, reserved⟩
  cases same : keyword.text.toList with
  | nil => simp [same] at starts
  | cons first run =>
    rw [same] at starts goesOn
    exact ⟨first, run, same, starts, goesOn⟩

theorem toList_spaced_cons (text : String) {others : List String} (several : others ≠ []) :
    (spaced (text :: others)).toList = text.toList ++ ' ' :: (spaced others).toList := by
  cases others with
  | nil => simp at several
  | cons other others => simp [spaced]

namespace Spelling

variable {α : Type} {input rest : List Lexeme}

/-! ## Constructs -/

theorem shut_opens (keyword : Keyword) : Shut (Opens keyword) (keyword.text.toList ++ ['(']) := by
  obtain ⟨isWord, reserved⟩ := keyword.isWord_text
  have word := printed_word isWord
  rw [reserved] at word
  exact (word.appendShut shut_openParen (by decide)).imp fun ⟨_, takes, paren⟩ =>
    ⟨_, ⟨_, takes⟩, paren⟩

/-- A keyword with what stands in parentheses after it. -/
theorem shut_applied {keyword : Keyword} {operands : List String}
    {Inside : List Lexeme → List Lexeme → Prop} (inside : Printed Inside (spaced operands).toList) :
    Shut (fun input rest => ∃ first, Opens keyword input first ∧
      ∃ second, Inside first second ∧ Closes second rest) (applied keyword operands).toList := by
  have text : (applied keyword operands).toList =
      keyword.text.toList ++ ['('] ++ ((spaced operands).toList ++ [')']) := by
    simp [applied]
  rw [text]
  exact (shut_opens keyword).appendShut (inside.appendShut shut_closes (by decide))

section

variable {Spells Inside First Second Third : List Lexeme → List Lexeme → Prop} {keyword : Keyword}
  {one two three : String} {operands : List String} {first second third fourth : List Lexeme}

theorem Renders.cons (renders : Renders First one input second)
    (others : Renders Second (spaced operands) second rest) (several : operands ≠ []) :
    Renders (fun input rest => ∃ middle, First input middle ∧ Second middle rest)
      (spaced (one :: operands)) input rest := by
  intro formed
  obtain ⟨formedLater, printed⟩ := renders formed
  obtain ⟨formedRest, printedOthers⟩ := others formedLater
  refine ⟨formedRest, ?_⟩
  rw [toList_spaced_cons one several]
  exact printed.spaced printedOthers

theorem Renders.both (renders : Renders First one input second)
    (others : Renders Second two second rest) :
    Renders (fun input rest => ∃ middle, First input middle ∧ Second middle rest)
      (spaced [one, two]) input rest := by
  have last : Renders Second (spaced [two]) second rest := others
  exact renders.cons last (by simp)

theorem Renders.pair (renders : Renders First one input second)
    (others : Renders Second two second rest)
    (make : ∀ {input middle rest}, First input middle → Second middle rest → Spells input rest) :
    Renders Spells (spaced [one, two]) input rest :=
  (renders.both others).imp fun ⟨_, first, second⟩ => make first second

theorem Renders.triple (renders : Renders First one input second)
    (others : Renders Second two second third) (last : Renders Third three third rest)
    (make : ∀ {input second third rest}, First input second → Second second third →
      Third third rest → Spells input rest) :
    Renders Spells (spaced [one, two, three]) input rest :=
  (renders.cons (others.both last) (by simp)).imp
    fun ⟨_, first, _, second, third⟩ => make first second third

theorem Renders.applied (opens : Opens keyword input first)
    (inside : Renders Inside (spaced operands) first second) (closes : Closes second rest)
    (make : ∀ {input first second rest}, Opens keyword input first → Inside first second →
      Closes second rest → Spells input rest) :
    Renders Spells (OwlFunctional.applied keyword operands) input rest := by
  intro formed
  obtain ⟨formedEnd, printed⟩ := inside (opens.isLocal.formed formed)
  exact ⟨closes.isLocal.formed formedEnd,
    (shut_applied printed).printed.imp fun ⟨_, opens, _, inside, closes⟩ => make opens inside closes⟩

theorem Renders.appliedOne (opens : Opens keyword input first)
    (inside : Renders Inside one first second) (closes : Closes second rest)
    (make : ∀ {input first second rest}, Opens keyword input first → Inside first second →
      Closes second rest → Spells input rest) :
    Renders Spells (OwlFunctional.applied keyword [one]) input rest := .applied opens inside closes make

theorem Renders.appliedPair (opens : Opens keyword input first)
    (renders : Renders First one first second) (others : Renders Second two second third)
    (closes : Closes third rest)
    (make : ∀ {input first second third rest}, Opens keyword input first → First first second →
      Second second third → Closes third rest → Spells input rest) :
    Renders Spells (OwlFunctional.applied keyword [one, two]) input rest :=
  .applied opens (renders.both others) closes
    fun opens ⟨_, first, second⟩ closes => make opens first second closes

theorem Renders.appliedTriple (opens : Opens keyword input first)
    (renders : Renders First one first second) (others : Renders Second two second third)
    (last : Renders Third three third fourth) (closes : Closes fourth rest)
    (make : ∀ {input first second third fourth rest}, Opens keyword input first →
      First first second → Second second third → Third third fourth → Closes fourth rest →
      Spells input rest) :
    Renders Spells (OwlFunctional.applied keyword [one, two, three]) input rest :=
  .applied opens (renders.cons (others.both last) (by simp)) closes
    fun opens ⟨_, first, _, second, third⟩ closes => make opens first second third closes

end

theorem map_ne_nil {values : List α} {render : α → String} (enough : 1 ≤ values.length) :
    values.map render ≠ [] := by
  rw [Ne, List.map_eq_nil_iff]
  rintro rfl
  simp at enough

/-- At least one item, with spaces between them. -/
theorem printed_sequence {Item : α → List Lexeme → List Lexeme → Prop} {render : α → String}
    {values : List α} (enough : 1 ≤ values.length)
    (each : ∀ value ∈ values, Printed (Item value) (render value).toList) :
    Printed (Sequence Item values) (spaced (values.map render)).toList := by
  induction values with
  | nil => simp at enough
  | cons value others ih =>
    have first := each value (by simp)
    cases others with
    | nil => exact first.imp fun spelled => .cons spelled .nil
    | cons other others =>
      have later := ih (by simp) fun value member => each value (List.mem_cons_of_mem _ member)
      rw [List.map_cons, toList_spaced_cons _ (by simp)]
      exact (first.spaced later).imp fun ⟨_, first, later⟩ => .cons first later

/-- Items are spelled one after the other, and each is spelled again by its written form. -/
def RendersEach (Item : α → List Lexeme → List Lexeme → Prop) (render : α → String)
    (values : List α) (input rest : List Lexeme) : Prop :=
  AllFormed input → AllFormed rest ∧ ∀ value ∈ values, Printed (Item value) (render value).toList

section

variable {Item First : α → List Lexeme → List Lexeme → Prop} {render : α → String} {value : α}
  {values : List α} {middle : List Lexeme}

theorem RendersEach.nil : RendersEach Item render [] input input := fun formed => ⟨formed, by simp⟩

theorem RendersEach.cons (renders : Renders (Item value) (render value) input middle)
    (others : RendersEach Item render values middle rest) :
    RendersEach Item render (value :: values) input rest := by
  intro formed
  obtain ⟨formedLater, printed⟩ := renders formed
  obtain ⟨formedRest, printedOthers⟩ := others formedLater
  exact ⟨formedRest, List.forall_mem_cons.mpr ⟨printed, printedOthers⟩⟩

theorem RendersEach.sequence (each : RendersEach Item render values input rest)
    (enough : 1 ≤ values.length) :
    Renders (Sequence Item values) (spaced (values.map render)) input rest := by
  intro formed
  obtain ⟨formedRest, printed⟩ := each formed
  exact ⟨formedRest, printed_sequence enough printed⟩

theorem Sequence.renders (items : Sequence First values input rest) (enough : 1 ≤ values.length)
    (each : ∀ {value input rest}, First value input rest →
      Renders (Item value) (render value) input rest) :
    Renders (Sequence Item values) (spaced (values.map render)) input rest := by
  refine RendersEach.sequence ?_ enough
  -- The sequence after the first item may be empty, so the bound is no part of the induction.
  clear enough
  induction items with
  | nil => exact .nil
  | cons first others ih => exact .cons (each first) ih

end

/-- What holds of each item of a sequence where its lexemes are formed. -/
theorem Sequence.forall_of_formed {Item : α → List Lexeme → List Lexeme → Prop} {P : α → Prop}
    {values : List α} (items : Sequence Item values input rest) (formed : AllFormed input)
    (frames : ∀ {value input rest}, Item value input rest → Framed (Item value) input rest)
    (each : ∀ {value input rest}, Item value input rest → AllFormed input → P value) :
    ∀ value ∈ values, P value := by
  induction items with
  | nil => simp
  | cons first others ih =>
    rw [List.forall_mem_cons]
    exact ⟨each first formed, ih ((frames first).formed formed)⟩

/-! ## Properties -/

theorem ObjectProperty.renders {prefixes other : Prefixes} {property : ObjectPropertyExpression}
    (spelled : ObjectProperty prefixes property input rest) (writable : prefixes.Writable) :
    Renders (ObjectProperty other property) property.render input rest := by
  have writes := writesNames_resolve writable
  cases spelled with
  | top name => exact (name.renders writes).imp .top
  | bottom name => exact (name.renders writes).imp .bottom
  | named name => exact (name.renders writes).imp .named
  | inverseOf opens name closes =>
    exact .appliedOne opens (name.renders writes) closes .inverseOf

theorem DataProperty.renders {prefixes other : Prefixes} {property : DataPropertyExpression}
    (spelled : DataProperty prefixes property input rest) (writable : prefixes.Writable) :
    Renders (DataProperty other property) property.render input rest := by
  have writes := writesNames_resolve writable
  cases spelled with
  | top name => exact (name.renders writes).imp .top
  | bottom name => exact (name.renders writes).imp .bottom
  | named name => exact (name.renders writes).imp .named

/-! ## Cardinalities -/

theorem digitsValue_toDigits (count : Nat) : Text.digitsValue (Nat.toDigits 10 count) = count := by
  have value : Nat.ofDigitChars 10 (Nat.toDigits 10 count) 0 = count :=
    Nat.ofDigitChars_toDigits (by decide) (by decide)
  rwa [Nat.ofDigitChars_eq_foldl] at value

theorem isDigits_toDigits (count : Nat) : Text.isDigits (Nat.toDigits 10 count) = true := by
  have digits : (Nat.toDigits 10 count).all Char.isDigit = true :=
    List.all_eq_true.mpr fun c member =>
      Nat.isDigit_of_mem_toDigits (by decide) (by decide) member
  have some : (Nat.toDigits 10 count).isEmpty = false := by
    simp [Nat.toDigits_ne_nil]
  rw [Text.isDigits, some, digits]
  rfl

theorem cardinality?_toDigits (count : UInt32) :
    Text.cardinality? (Nat.toDigits 10 count.toNat) = some count := by
  have digits := isDigits_toDigits count.toNat
  have small : count.toNat < UInt32.size := count.toNat_lt
  unfold Text.cardinality?
  split
  · next same =>
    rw [same] at digits
    simp [Text.isDigits, Char.isDigit] at digits
  · simp only [digits, digitsValue_toDigits]
    simp [small]

theorem printed_cardinality (count : UInt32) :
    Printed (Cardinality count) (ClassExpression.renderCount count).toList := by
  have value := cardinality?_toDigits count
  have small : Text.digitsValue (Nat.toDigits 10 count.toNat) < 9223372036854775808 := by
    rw [digitsValue_toDigits]
    exact Nat.lt_trans count.toNat_lt (by decide)
  obtain ⟨first, run, text, starts, inside, integer, -⟩ :=
    isInteger_of_isDigits (isDigits_toDigits count.toNat) small
  rw [String.toList_ofList] at text
  have written : (ClassExpression.renderCount count).toList = first :: run := by
    simp [ClassExpression.renderCount, text]
  rw [written]
  rw [text] at value
  have takes : Printed (Takes ⟨.integer, .ofList (first :: run)⟩) (first :: run) := by
    refine .ofTakes rfl fun after stops => ?_
    have ends : ∀ c ∈ after.head?, continuesNumber c = false :=
      fun c member => (stops.ends c member).2
    rw [lexemesOf_number starts inside ends, integer]
  exact takes.imp fun takes => ⟨_, takes, by rw [String.toList_ofList, value]⟩

theorem Cardinality.renders {count : UInt32} (spelled : Cardinality count input rest) :
    Renders (Cardinality count) (ClassExpression.renderCount count) input rest := fun formed =>
  ⟨spelled.isLocal.formed formed, printed_cardinality count⟩

/-! ## Data ranges -/

theorem FacetPair.renders {prefixes other : Prefixes} {pair : FacetRestriction}
    (spelled : FacetPair prefixes pair input rest) (writable : prefixes.Writable) :
    Renders (FacetPair other pair) pair.render input rest := by
  obtain ⟨middle, name, value⟩ := spelled
  have text : pair.render = spaced [pair.facet.iri.render, pair.value.render] := by
    apply String.toList_injective
    simp [FacetRestriction.render, Facet.render, spaced]
  rw [text]
  exact (name.renders (writesNames_resolve writable)).pair (value.renders writable)
    fun name value => ⟨_, name, value⟩

theorem renderAll_ranges (operands : List OwlFunctional.DataRange) :
    DataRange.renderAll operands = operands.map DataRange.render := by
  induction operands with
  | nil => rfl
  | cons operand others ih => rw [DataRange.renderAll, ih, List.map_cons]

mutual

/-- A data range that was spelled is spelled by its written form. -/
theorem DataRange.renders {prefixes other : Prefixes} (writable : prefixes.Writable) :
    ∀ {range : OwlFunctional.DataRange} {input rest : List Lexeme},
    DataRange prefixes range input rest → Renders (DataRange other range) range.render input rest
  | _, _, _, .builtin known name =>
    (name.renders (writesNames_resolve writable)).imp (.builtin known)
  | _, _, _, .named foreign name =>
    (name.renders (writesNames_resolve writable)).imp (.named foreign)
  | _, _, _, .restriction opens name facets enough closes =>
    .applied opens ((name.renders (writesNames_resolve writable)).cons
        (facets.renders enough fun pair => pair.renders writable) (map_ne_nil enough))
      closes fun opens ⟨_, name, facets⟩ closes => .restriction opens name facets enough closes
  | _, _, _, .junction opens operands enough closes => by
    refine .applied opens ?_ closes fun opens operands closes => .junction opens operands enough closes
    rw [renderAll_ranges]
    exact (DataRange.eachRenders writable operands).sequence (by omega)
  | _, _, _, .complementOf opens operand closes =>
    .appliedOne opens (DataRange.renders writable operand) closes .complementOf
  | _, _, _, .oneOf opens values enough closes =>
    .applied opens (values.renders enough fun value => value.renders writable) closes
      fun opens values closes => .oneOf opens values enough closes

theorem DataRange.eachRenders {prefixes other : Prefixes} (writable : prefixes.Writable) :
    ∀ {ranges : List OwlFunctional.DataRange} {input rest : List Lexeme},
    Sequence (DataRange prefixes) ranges input rest →
    RendersEach (DataRange other) OwlFunctional.DataRange.render ranges input rest
  | _, _, _, .nil => .nil
  | _, _, _, .cons first others =>
    .cons (DataRange.renders writable first) (DataRange.eachRenders writable others)

end

/-! ## Class expressions -/

theorem renderAll_classes (operands : List ClassExpression) :
    ClassExpression.renderAll operands = operands.map ClassExpression.render := by
  induction operands with
  | nil => rfl
  | cons operand others ih => rw [ClassExpression.renderAll, ih, List.map_cons]

mutual

/-- A class expression that was spelled is spelled by its written form. -/
theorem Class.renders {prefixes other : Prefixes} (writable : prefixes.Writable) :
    ∀ {expression : ClassExpression} {input rest : List Lexeme},
    Class prefixes expression input rest →
    Renders (Class other expression) expression.render input rest
  | _, _, _, .thing name => (name.renders (writesNames_resolve writable)).imp .thing
  | _, _, _, .nothing name => (name.renders (writesNames_resolve writable)).imp .nothing
  | _, _, _, .named name => (name.renders (writesNames_resolve writable)).imp .named
  | _, _, _, .junction opens operands enough closes => by
    refine .applied opens ?_ closes fun opens operands closes => .junction opens operands enough closes
    rw [renderAll_classes]
    exact (Class.eachRenders writable operands).sequence (by omega)
  | _, _, _, .complementOf opens operand closes =>
    .appliedOne opens (Class.renders writable operand) closes .complementOf
  | _, _, _, .oneOf opens individuals enough closes =>
    .applied opens (individuals.renders enough fun one => one.renders writable) closes
      fun opens individuals closes => .oneOf opens individuals enough closes
  | _, _, _, .objectQuantified opens property filler closes =>
    .appliedPair opens (property.renders writable) (Class.renders writable filler)
      closes .objectQuantified
  | _, _, _, .objectHasValue opens property value closes =>
    .appliedPair opens (property.renders writable) (value.renders writable) closes
      .objectHasValue
  | _, _, _, .objectHasSelf opens property closes =>
    .appliedOne opens (property.renders writable) closes .objectHasSelf
  | _, _, _, .objectCardinality opens count property closes =>
    .appliedPair opens count.renders (property.renders writable) closes .objectCardinality
  | _, _, _, .objectQualified opens count property filler closes =>
    .appliedTriple opens count.renders (property.renders writable)
      (Class.renders writable filler) closes .objectQualified
  | _, _, _, .dataQuantified opens property range closes =>
    .appliedPair opens (property.renders writable) (range.renders writable) closes
      .dataQuantified
  | _, _, _, .dataHasValue opens property value closes =>
    .appliedPair opens (property.renders writable) (value.renders writable) closes
      .dataHasValue
  | _, _, _, .dataCardinality opens count property closes =>
    .appliedPair opens count.renders (property.renders writable) closes .dataCardinality
  | _, _, _, .dataQualified opens count property range closes =>
    .appliedTriple opens count.renders (property.renders writable)
      (range.renders writable) closes .dataQualified

theorem Class.eachRenders {prefixes other : Prefixes} (writable : prefixes.Writable) :
    ∀ {classes : List ClassExpression} {input rest : List Lexeme},
    Sequence (Class prefixes) classes input rest →
    RendersEach (Class other) ClassExpression.render classes input rest
  | _, _, _, .nil => .nil
  | _, _, _, .cons first others =>
    .cons (Class.renders writable first) (Class.eachRenders writable others)

end

end Spelling

end OwlFunctional
