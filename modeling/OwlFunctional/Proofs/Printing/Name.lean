import OwlFunctional.Proofs.Locality
import OwlFunctional.Proofs.Printing.Lexeme

/-! What was spelled is spelled again by its written form: names.

All that is spelled by lexemes of a text can be written so that it is read back. The written form
uses no abbreviations, so any table of them will do for the second reading.
-/

set_option autoImplicit false

namespace OwlFunctional

open Lexeme

def Iri.Writable (iri : Iri) : Prop := iri.text.toList.all insideIri = true

instance (iri : Iri) : Decidable iri.Writable := inferInstanceAs (Decidable (_ = true))

/-- The text is read as one word or keyword. -/
def IsWord (text : String) : Prop :=
  ∃ first run, text.toList = first :: run ∧ Text.startsWord first = true ∧
    run.all Text.continuesWord = true

def Prefixes.Writable (prefixes : Prefixes) : Prop :=
  ∀ binding ∈ prefixes.bindings, (⟨binding.space⟩ : Iri).Writable

namespace Lexeme

variable {literal : String} {token : Token}

theorem Formed.isWord (formed : Formed ⟨token, literal⟩) (word : token.isWord = true) :
    IsWord literal ∧ token = .ofWord literal := by
  cases formed with
  | word starts goesOn => exact ⟨⟨_, _, String.toList_ofList, starts, goesOn⟩, rfl⟩
  | @number first rest =>
    rcases numberToken_cases (first :: rest) with ⟨kind, -⟩ | ⟨kind, -⟩ | kind <;>
      simp [kind, Token.isWord] at word
  | iri => simp [Token.isWord] at word
  | openIri => simp [Token.isWord] at word
  | other strange => simp [strange] at word

theorem Formed.writable {iri : Iri} (formed : Formed ⟨token, literal⟩) (kind : token = .iri)
    (written : literal = iri.render) : iri.Writable := by
  have inner : iri.render.toList = '<' :: (iri.text.toList ++ ['>']) := by simp [Iri.render]
  cases formed with
  | word => exact absurd kind (ofWord_ne rfl _)
  | @number first rest =>
    rcases numberToken_cases (first :: rest) with ⟨same, -⟩ | ⟨same, -⟩ | same <;>
      simp [same] at kind
  | iri inside =>
    have same := congrArg String.toList written
    rw [inner, String.toList_ofList, List.cons_append, List.cons.injEq] at same
    rw [Iri.Writable, ← List.append_cancel_right same.2]
    exact inside
  | openIri inside =>
    -- The closing bracket would have ended the lexeme.
    have same := congrArg String.toList written
    rw [inner, String.toList_ofList, List.cons.injEq] at same
    rw [same.2, List.all_append] at inside
    simp [insideIri] at inside
  | other _ _ _ strange => exact absurd kind strange

end Lexeme

namespace Spelling

/-- All lexemes have the form of their tokens. -/
def AllFormed (input : List Lexeme) : Prop := ∀ lexeme ∈ input, lexeme.Formed

theorem AllFormed.suffix {taken rest : List Lexeme} (formed : AllFormed (taken ++ rest)) :
    AllFormed rest := fun lexeme member => formed lexeme (List.mem_append_right taken member)

theorem Framed.formed {Spells : List Lexeme → List Lexeme → Prop} {input rest : List Lexeme}
    (framed : Framed Spells input rest) (formed : AllFormed input) : AllFormed rest := by
  obtain ⟨taken, rfl, -⟩ := framed
  exact formed.suffix

theorem Local.formed {Spells : List Lexeme → List Lexeme → Prop} {input rest : List Lexeme}
    (here : Local Spells input rest) (formed : AllFormed input) : AllFormed rest :=
  here.framed.formed formed

theorem Takes.formed {lexeme : Lexeme} {input rest : List Lexeme} (takes : Takes lexeme input rest)
    (formed : AllFormed input) : lexeme.Formed := by
  have member : lexeme ∈ significant input := by
    rw [takes]
    exact List.mem_cons_self
  exact formed lexeme ((significant_suffix input).subset member)

/-! ## Texts that spell something -/

/-- A text spells something, before every text that ends it and after any trivia. -/
def Printed (Spells : List Lexeme → List Lexeme → Prop) (text : List Char) : Prop :=
  ∀ (input : List Lexeme) (after : List Char), Stops after →
    significant input = significant (lexemesOf (text ++ after)) → Spells input (lexemesOf after)

/-- A text that shows its end by itself spells something before every other text. -/
def Shut (Spells : List Lexeme → List Lexeme → Prop) (text : List Char) : Prop :=
  ∀ (input : List Lexeme) (after : List Char),
    significant input = significant (lexemesOf (text ++ after)) → Spells input (lexemesOf after)

section

variable {First Second Spells : List Lexeme → List Lexeme → Prop} {text more : List Char}

theorem Shut.printed (shut : Shut Spells text) : Printed Spells text :=
  fun input after _ alike => shut input after alike

theorem Printed.imp (printed : Printed First text)
    (implied : ∀ {input rest}, First input rest → Second input rest) : Printed Second text :=
  fun input after stops alike => implied (printed input after stops alike)

theorem Shut.imp (shut : Shut First text)
    (implied : ∀ {input rest}, First input rest → Second input rest) : Shut Second text :=
  fun input after alike => implied (shut input after alike)

theorem Shut.append (shut : Shut First text) (others : Printed Second more) :
    Printed (fun input rest => ∃ middle, First input middle ∧ Second middle rest)
      (text ++ more) := by
  intro input after stops alike
  rw [List.append_assoc] at alike
  exact ⟨_, shut input (more ++ after) alike, others _ after stops rfl⟩

theorem Shut.appendShut (shut : Shut First text) (others : Shut Second more) :
    Shut (fun input rest => ∃ middle, First input middle ∧ Second middle rest)
      (text ++ more) := by
  intro input after alike
  rw [List.append_assoc] at alike
  exact ⟨_, shut input (more ++ after) alike, others _ after rfl⟩

/-- One text directly after another one that ends there. -/
theorem Printed.appendShut (printed : Printed First text) {c : Char}
    (others : Shut Second (c :: more)) (ends : separates c = true) :
    Shut (fun input rest => ∃ middle, First input middle ∧ Second middle rest)
      (text ++ c :: more) := by
  intro input after alike
  rw [List.append_assoc] at alike
  exact ⟨_, printed input (c :: more ++ after) (.cons ends _) alike, others _ after rfl⟩

/-- Two texts with a space between them. -/
theorem Printed.spaced (printed : Printed First text) (others : Printed Second more) :
    Printed (fun input rest => ∃ middle, First input middle ∧ Second middle rest)
      (text ++ ' ' :: more) := by
  intro input after stops alike
  rw [List.append_assoc] at alike
  exact ⟨_, printed input (' ' :: more ++ after) (.cons (by decide) _) alike,
    others _ after stops (significant_blank _)⟩

theorem Printed.ofTakes {lexeme : Lexeme} (telling : lexeme.token.isTrivia = false)
    (cut : ∀ after, Stops after → lexemesOf (text ++ after) = lexeme :: lexemesOf after) :
    Printed (Takes lexeme) text := by
  intro input after stops alike
  rw [cut after stops, significant_cons telling] at alike
  exact alike

theorem Shut.ofTakes {lexeme : Lexeme} (telling : lexeme.token.isTrivia = false)
    (cut : ∀ after, lexemesOf (text ++ after) = lexeme :: lexemesOf after) :
    Shut (Takes lexeme) text := by
  intro input after alike
  rw [cut after, significant_cons telling] at alike
  exact alike

end

theorem shut_colon : Shut (Mark .colon) [':'] :=
  (Shut.ofTakes rfl (lexemesOf_cons ':')).imp fun takes => ⟨_, takes⟩

theorem shut_equals : Shut (Mark .equals) ['='] :=
  (Shut.ofTakes rfl (lexemesOf_cons '=')).imp fun takes => ⟨_, takes⟩

theorem shut_openParen : Shut (Mark .openParen) ['('] :=
  (Shut.ofTakes rfl (lexemesOf_cons '(')).imp fun takes => ⟨_, takes⟩

theorem shut_closes : Shut Closes [')'] :=
  (Shut.ofTakes rfl (lexemesOf_cons ')')).imp fun takes => ⟨_, takes⟩

theorem shut_atSign : Shut (Mark .atSign) ['@'] :=
  (Shut.ofTakes rfl (lexemesOf_cons '@')).imp fun takes => ⟨_, takes⟩

theorem shut_doubleCaret : Shut (Mark .doubleCaret) ['^', '^'] :=
  (Shut.ofTakes rfl fun after => lexemesOf_cons '^' ('^' :: after)).imp fun takes => ⟨_, takes⟩

theorem printed_word {text : String} (word : IsWord text) :
    Printed (Takes ⟨.ofWord text, text⟩) text.toList := by
  obtain ⟨first, run, same, starts, goesOn⟩ := word
  refine .ofTakes (ofWord_isTrivia text) fun after stops => ?_
  have ends : ∀ c ∈ after.head?, Text.continuesWord c = false :=
    fun c member => (stops.ends c member).1
  have written : text = .ofList (first :: run) := by rw [← same, String.ofList_toList]
  rw [same, lexemesOf_word starts goesOn ends, ← written]

/-- Lexemes of a text spell something, and this written form of it spells it again. -/
def Renders (Spells : List Lexeme → List Lexeme → Prop) (text : String)
    (input rest : List Lexeme) : Prop :=
  AllFormed input → AllFormed rest ∧ Printed Spells text.toList

theorem Renders.imp {First Spells : List Lexeme → List Lexeme → Prop} {text : String}
    {input rest : List Lexeme} (renders : Renders First text input rest)
    (implied : ∀ {input rest}, First input rest → Spells input rest) :
    Renders Spells text input rest := by
  intro formed
  obtain ⟨formedRest, printed⟩ := renders formed
  exact ⟨formedRest, printed.imp implied⟩

/-! ## Names -/

theorem lexemesOf_render {iri : Iri} (writable : iri.Writable) (after : List Char) :
    lexemesOf (iri.render.toList ++ after) = ⟨.iri, iri.render⟩ :: lexemesOf after := by
  have written : iri.render = .ofList ('<' :: iri.text.toList ++ ['>']) := by
    apply String.toList_injective
    simp [Iri.render]
  rw [written, String.toList_ofList, ← lexemesOf_iri writable, List.append_assoc,
    List.singleton_append]

theorem shut_iri {iri : Iri} (writable : iri.Writable) :
    Shut (Takes ⟨.iri, iri.render⟩) iri.render.toList :=
  .ofTakes rfl (lexemesOf_render writable)

theorem shut_name {iri : Iri} (writable : iri.Writable)
    (resolve : String → String → Option Iri) :
    Shut (Name resolve iri) iri.render.toList := (shut_iri writable).imp .bracketed

/-- What short names stand for can be written. -/
def WritesNames (resolve : String → String → Option Iri) : Prop :=
  ∀ ⦃label name : String⦄ ⦃iri : Iri⦄, IsWord name → resolve label name = some iri → iri.Writable

theorem insideIri_of {p : Char → Bool} (close : p '>' = false) (feed : p '\n' = false)
    (back : p '\r' = false) {c : Char} (holds : p c = true) : insideIri c = true := by
  have notClose : c ≠ '>' := by rintro rfl; simp [close] at holds
  have notFeed : c ≠ '\n' := by rintro rfl; simp [feed] at holds
  have notBack : c ≠ '\r' := by rintro rfl; simp [back] at holds
  simp [insideIri, isLineEnd, notClose, notFeed, notBack]

theorem insideIri_of_continuesWord {c : Char} (continues : Text.continuesWord c = true) :
    insideIri c = true := insideIri_of (by decide) (by decide) (by decide) continues

theorem insideIri_of_isWord {text : String} (word : IsWord text) :
    text.toList.all insideIri = true := by
  obtain ⟨first, run, same, starts, goesOn⟩ := word
  rw [same, List.all_eq_true]
  intro c member
  rcases List.mem_cons.mp member with rfl | member
  · exact insideIri_of_continuesWord (Text.continuesWord_of_startsWord starts)
  · exact insideIri_of_continuesWord (List.all_eq_true.mp goesOn c member)

theorem writesNames_resolve {prefixes : Prefixes} (writable : prefixes.Writable) :
    WritesNames prefixes.resolve? := by
  intro label name iri word known
  obtain ⟨space, found, rfl⟩ := Option.map_eq_some_iff.mp known
  obtain ⟨binding, listed, rfl⟩ := Option.map_eq_some_iff.mp found
  have spaceWritable := writable binding (List.mem_of_find?_eq_some listed)
  unfold Iri.Writable at spaceWritable ⊢
  rw [String.toList_append, List.all_append, spaceWritable, insideIri_of_isWord word]
  rfl

theorem writesNames_globally {prefixes : Prefixes} (writable : prefixes.Writable) :
    WritesNames (globally prefixes) := by
  intro label name iri word known
  unfold globally at known
  split at known
  · simp at known
  · exact writesNames_resolve writable word known

variable {input rest : List Lexeme}

theorem ShortName.isWord {label name : String} (short : ShortName label name input rest)
    (formed : AllFormed input) : IsWord name := by
  cases short with
  | labelled takes mark isWord named =>
    have later := mark.isLocal.formed ((Takes.isLocal takes).formed formed)
    exact ((Takes.formed named later).isWord isWord).1
  | plain mark isWord named =>
    exact ((Takes.formed named (mark.isLocal.formed formed)).isWord isWord).1

theorem Name.writable {resolve : String → String → Option Iri} {iri : Iri}
    (name : Name resolve iri input rest) (formed : AllFormed input)
    (writes : WritesNames resolve) : iri.Writable := by
  cases name with
  | bracketed takes => exact (Takes.formed takes formed).writable rfl rfl
  | short short known => exact writes (short.isWord formed) known

/-- A name that was spelled is spelled by its written form, whatever the abbreviations. -/
theorem Name.renders {resolve : String → String → Option Iri} {iri : Iri}
    (name : Name resolve iri input rest) (writes : WritesNames resolve)
    {other : String → String → Option Iri} : Renders (Name other iri) iri.render input rest :=
  fun formed =>
    ⟨name.isLocal.formed formed, (shut_name (name.writable formed writes) other).printed⟩

theorem printed_anonymous {label : BlankLabel} (word : IsWord label.text) :
    Printed (ShortName Grammar.anonymousMark label.text) label.render.toList := by
  have isWord : IsWord Grammar.anonymousMark := ⟨'_', [], by decide, by decide, rfl⟩
  have reserved : Token.ofWord Grammar.anonymousMark = .word := by decide
  have mark := printed_word isWord
  rw [reserved] at mark
  have parts := (mark.appendShut shut_colon (by decide)).append (printed_word word)
  have text : label.render.toList = Grammar.anonymousMark.toList ++ [':'] ++ label.text.toList := by
    simp [BlankLabel.render, Grammar.anonymousMark]
  rw [text]
  exact parts.imp fun ⟨_, ⟨_, takes, colon⟩, named⟩ =>
    .labelled takes colon (Token.ofWord_isWord _) named

theorem ShortName.renders_anonymous {label : BlankLabel}
    (short : ShortName Grammar.anonymousMark label.text input rest) :
    Renders (ShortName Grammar.anonymousMark label.text) label.render input rest := fun formed =>
  ⟨short.isLocal.formed formed, printed_anonymous (short.isWord formed)⟩

theorem Individual.renders {prefixes other : Prefixes} {individual : OwlFunctional.Individual}
    (spelled : Individual prefixes individual input rest) (writable : prefixes.Writable) :
    Renders (Individual other individual) individual.render input rest := by
  cases spelled with
  | named name => exact (name.renders (writesNames_globally writable)).imp .named
  | anonymous short => exact short.renders_anonymous.imp .anonymous

end Spelling

end OwlFunctional
