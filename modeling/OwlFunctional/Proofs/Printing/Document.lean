import OwlFunctional.Document
import OwlFunctional.Proofs.Printing.Statement

/-! What was spelled is spelled again by its written form: whole documents.

A document is written in lines. The next line starts after the trivia that ends the line before, so
here the rest of a text is known up to leading trivia only.
-/

set_option autoImplicit false

namespace OwlFunctional

open Lexeme

/-- The text can stand before the colon of an abbreviation. -/
def IsLabel (text : String) : Prop := text = "" ∨ IsWord text ∧ Token.ofWord text = .word

namespace Spelling

/-- A text spells something before every other text, up to trivia on either side. -/
def Loose (Spells : List Lexeme → List Lexeme → Prop) (text : List Char) : Prop :=
  ∀ (input : List Lexeme) (after : List Char),
    significant input = significant (lexemesOf (text ++ after)) →
    ∃ rest, Spells input rest ∧ significant rest = significant (lexemesOf after)

section

variable {First Second Spells : List Lexeme → List Lexeme → Prop} {text more : List Char}

theorem Shut.loose (shut : Shut Spells text) : Loose Spells text :=
  fun input after alike => ⟨_, shut input after alike, rfl⟩

theorem Shut.line (shut : Shut Spells text) : Loose Spells (text ++ ['\n']) := by
  intro input after alike
  rw [List.append_assoc] at alike
  exact ⟨_, shut input ('\n' :: after) alike, significant_lineEnd after⟩

theorem Loose.append (first : Loose First text) (second : Loose Second more) :
    Loose (fun input rest => ∃ middle, First input middle ∧ Second middle rest) (text ++ more) := by
  intro input after alike
  rw [List.append_assoc] at alike
  obtain ⟨middle, spelled, same⟩ := first input (more ++ after) alike
  obtain ⟨rest, others, end_⟩ := second middle after same
  exact ⟨rest, ⟨middle, spelled, others⟩, end_⟩

theorem Loose.imp (loose : Loose First text)
    (implied : ∀ {input rest}, First input rest → Second input rest) : Loose Second text := by
  intro input after alike
  obtain ⟨rest, spelled, same⟩ := loose input after alike
  exact ⟨rest, implied spelled, same⟩

/-- Items in lines of their own. -/
theorem loose_lines {α : Type} {Item : α → List Lexeme → List Lexeme → Prop} {line : α → List Char}
    {values : List α} (each : ∀ value ∈ values, Loose (Item value) (line value)) :
    Loose (Sequence Item values) (values.flatMap line) := by
  induction values with
  | nil => exact fun input after alike => ⟨input, .nil, alike⟩
  | cons value others ih =>
    have later := ih fun value member => each value (List.mem_cons_of_mem _ member)
    exact ((each value (by simp)).append later).imp fun ⟨_, first, others⟩ => .cons first others

end

/-! ## The parts of a document -/

theorem shut_bound {binding : Binding} (label : IsLabel binding.label)
    (writable : (⟨binding.space⟩ : Iri).Writable) :
    Loose (Bound binding) (Prefixes.renderBinding binding).toList := by
  have text : (Prefixes.renderBinding binding).toList =
      Keyword.prefixBinding.text.toList ++ ['('] ++ (binding.label.toList ++ [':'] ++
        (['='] ++ ((⟨binding.space⟩ : Iri).render.toList ++ [')']))) ++ ['\n'] := by
    have word : Keyword.prefixBinding.text = "Prefix" := rfl
    simp [Prefixes.renderBinding, Iri.render, word]
  have named : Shut (fun input rest => ∃ middle, Label binding.label input middle ∧
      Mark .colon middle rest) (binding.label.toList ++ [':']) := by
    rcases label with empty | ⟨isWord, plain⟩
    · rw [empty]
      exact shut_colon.imp fun colon => ⟨_, .empty, colon⟩
    · have word := printed_word isWord
      rw [plain] at word
      exact (word.imp .word).appendShut shut_colon (by decide)
  have space := shut_equals.appendShut ((shut_iri writable).appendShut shut_closes)
  rw [text]
  refine ((shut_opens .prefixBinding).appendShut (named.appendShut space)).line.imp fun spelled => ?_
  obtain ⟨_, opens, _, ⟨_, label, colon⟩, _, equals, _, iri, closes⟩ := spelled
  exact ⟨_, _, _, _, _, opens, label, colon, equals, iri, closes⟩

theorem loose_bindings {prefixes : Prefixes}
    (labels : ∀ binding ∈ prefixes.bindings, IsLabel binding.label)
    (writable : prefixes.Writable) :
    Loose (Sequence Bound prefixes.bindings) prefixes.render.toList := by
  have text : prefixes.render.toList =
      prefixes.bindings.flatMap fun binding => (Prefixes.renderBinding binding).toList := by
    unfold Prefixes.render
    induction prefixes.bindings with
    | nil => rfl
    | cons binding others ih => simp [ih]
  rw [text]
  exact loose_lines fun binding member => shut_bound (labels binding member) (writable binding member)

def versionText (version : Option Iri) : List Char :=
  match version with
  | none => []
  | some version => ' ' :: version.render.toList

theorem loose_header {iri : Iri} {version : Option Iri} (writable : iri.Writable)
    (versionWritable : ∀ name ∈ version, name.Writable) :
    Loose (Header iri version) (Keyword.ontology.text.toList ++ ['('] ++
      (iri.render.toList ++ versionText version ++ ['\n'])) := by
  cases version with
  | none =>
    have line : Loose (Takes ⟨.iri, iri.render⟩) (iri.render.toList ++ [] ++ ['\n']) := by
      rw [List.append_nil]
      exact (shut_iri writable).line
    exact ((shut_opens .ontology).loose.append line).imp
      fun ⟨_, opens, takes⟩ => ⟨_, _, opens, takes, rfl⟩
  | some version =>
    have versioned := shut_iri (versionWritable version rfl)
    have line : Loose (fun input rest => ∃ middle, Takes ⟨.iri, iri.render⟩ input middle ∧
        Takes ⟨.iri, version.render⟩ middle rest)
        (iri.render.toList ++ ' ' :: version.render.toList ++ ['\n']) := by
      intro input after alike
      simp only [List.append_assoc] at alike
      have first := shut_iri writable input _ alike
      exact ⟨_, ⟨_, first, versioned _ ('\n' :: after) (significant_blank _)⟩,
        significant_lineEnd after⟩
    exact ((shut_opens .ontology).loose.append line).imp
      fun ⟨_, opens, _, takes, version⟩ => ⟨_, _, opens, takes, version⟩

/-! ## What the preamble gives can be written -/

variable {input rest : List Lexeme}

theorem isLabel_of_formed {label : String} (formed : Formed ⟨.word, label⟩) : IsLabel label := by
  obtain ⟨isWord, reserved⟩ := formed.isWord rfl
  exact .inr ⟨isWord, reserved.symm⟩

theorem Label.parts {label : String} (spelled : Label label input rest) (formed : AllFormed input) :
    AllFormed rest ∧ IsLabel label := by
  cases spelled with
  | empty => exact ⟨formed, .inl rfl⟩
  | word takes =>
    exact ⟨(Takes.isLocal takes).formed formed, isLabel_of_formed (Takes.formed takes formed)⟩

theorem Bound.parts {binding : Binding} (spelled : Bound binding input rest)
    (formed : AllFormed input) :
    AllFormed rest ∧ IsLabel binding.label ∧ (⟨binding.space⟩ : Iri).Writable := by
  obtain ⟨_, _, _, _, _, opens, label, colon, equals, space, closes⟩ := spelled
  obtain ⟨formedColon, isLabel⟩ := label.parts (opens.isLocal.formed formed)
  have formedSpace := equals.isLocal.formed (colon.isLocal.formed formedColon)
  exact ⟨closes.isLocal.formed ((Takes.isLocal space).formed formedSpace), isLabel,
    (Takes.formed space formedSpace).writable rfl rfl⟩

theorem bound_parts {bindings : List Binding} (spelled : Sequence Bound bindings input rest)
    (formed : AllFormed input) :
    AllFormed rest ∧ ∀ binding ∈ bindings, IsLabel binding.label ∧
      (⟨binding.space⟩ : Iri).Writable := by
  induction spelled with
  | nil => exact ⟨formed, by simp⟩
  | cons first others ih =>
    obtain ⟨formedLater, known⟩ := first.parts formed
    obtain ⟨formedLast, others⟩ := ih formedLater
    exact ⟨formedLast, List.forall_mem_cons.mpr ⟨known, others⟩⟩

theorem Header.parts {iri : Iri} {version : Option Iri} (spelled : Header iri version input rest)
    (formed : AllFormed input) :
    AllFormed rest ∧ iri.Writable ∧ ∀ name ∈ version, name.Writable := by
  obtain ⟨_, _, opens, takes, versioned⟩ := spelled
  have formedName := opens.isLocal.formed formed
  have formedVersion := (Takes.isLocal takes).formed formedName
  have writable := (Takes.formed takes formedName).writable rfl rfl
  cases version with
  | none => exact ⟨versioned ▸ formedVersion, writable, by simp⟩
  | some name =>
    refine ⟨(Takes.isLocal versioned).formed formedVersion, writable, ?_⟩
    intro other same
    obtain rfl : name = other := by simpa using same
    exact (Takes.formed versioned formedVersion).writable rfl rfl

end Spelling

/-! ## Abbreviations -/

structure Prefixes.Printable (prefixes : Prefixes) : Prop where
  labels : ∀ binding ∈ prefixes.bindings, IsLabel binding.label
  spaces : prefixes.Writable

namespace Prefixes

theorem printable_empty : empty.Printable := ⟨by simp [empty], by simp [empty, Writable]⟩

theorem Writable.insert {prefixes : Prefixes} (writable : prefixes.Writable) {label space : String}
    (spaceWritable : (⟨space⟩ : Iri).Writable) : (prefixes.insert label space).Writable := by
  intro binding member
  rcases mem_placeBy member with rfl | member
  · exact spaceWritable
  · exact writable binding member

theorem Writable.override {prefixes : Prefixes} (writable : prefixes.Writable)
    {bindings : List Binding} (known : ∀ binding ∈ bindings, (⟨binding.space⟩ : Iri).Writable) :
    (prefixes.override bindings).Writable := by
  induction bindings generalizing prefixes with
  | nil => exact writable
  | cons binding others ih =>
    obtain ⟨first, others⟩ := List.forall_mem_cons.mp known
    exact ih (writable.insert first) others

theorem Printable.insert {prefixes : Prefixes} (printable : prefixes.Printable) {label space : String}
    (isLabel : IsLabel label) (writable : (⟨space⟩ : Iri).Writable) :
    (prefixes.insert label space).Printable := by
  refine ⟨fun binding member => ?_, printable.spaces.insert writable⟩
  rcases mem_placeBy member with rfl | member
  · exact isLabel
  · exact printable.labels binding member

theorem Printable.override {prefixes : Prefixes} (printable : prefixes.Printable)
    {bindings : List Binding} (known : ∀ binding ∈ bindings, IsLabel binding.label ∧
      (⟨binding.space⟩ : Iri).Writable) : (prefixes.override bindings).Printable := by
  induction bindings generalizing prefixes with
  | nil => exact printable
  | cons binding others ih =>
    obtain ⟨⟨isLabel, writable⟩, others⟩ := List.forall_mem_cons.mp known
    exact ih (printable.insert isLabel writable) others

theorem override_bindings (prefixes : Prefixes) (bindings : List Binding) :
    (prefixes.override bindings).bindings =
      bindings.foldl (fun placed binding => placeBy Binding.label binding placed)
        prefixes.bindings := by
  induction bindings generalizing prefixes with
  | nil => rfl
  | cons binding others ih =>
    exact ih (prefixes.insert binding.label binding.space)

/-- Abbreviations come out as they were if they are bound again one by one. -/
theorem override_empty (prefixes : Prefixes) : empty.override prefixes.bindings = prefixes := by
  have same : (empty.override prefixes.bindings).bindings = [] ++ prefixes.bindings := by
    rw [override_bindings]
    exact foldl_placeBy prefixes.ordered
  exact Prefixes.ext same

end Prefixes

end OwlFunctional
