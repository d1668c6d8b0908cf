import OwlFunctional.Proofs.Identifier
import OwlFunctional.Proofs.Printing.Document
import OwlFunctional.Proofs.Reordering
import OwlFunctional.Proofs.Respelling

/-! Documents with identifiers in place of their short names.

The lexemes of the other document are those that the replacements give, because an identifier is
closed by its own bracket and ends what stands before it. So it has the same statements, and
nothing else of a document is seen by a catalogue.
-/

set_option autoImplicit false

namespace OwlFunctional

open Acceptance (SameContent)
open Lexeme
open Spelling (States Closes respell Opening)

/-! ## The text of the replacement -/

/-- An identifier is closed by its own bracket, so what is legible is legible after it. It can be
written in place of what begins within a line. -/
theorem Lexeme.Replaces.iri {iri : Iri} (writable : iri.Writable) {lexeme : Lexeme}
    {given after : List Lexeme} (legible : Legible given) (within : Legible (lexeme :: after))
    (other : lexeme.token ≠ .eol) : Replaces (⟨.iri, iri.render⟩ :: given) (lexeme :: after) := by
  have text : asText (⟨.iri, iri.render⟩ :: given) = iri.render.toList ++ asText given := by
    simp [inText]
  constructor
  · rw [Legible, text, Spelling.lexemesOf_render writable, legible]
  · obtain ⟨first, taken, written, same, -, -⟩ := within.cut_first
    intro c member
    rw [text] at member
    obtain rfl : '<' = c := by simpa [Iri.render] using member
    refine .inr ⟨rfl, first, by rw [asText_cons, written]; rfl, ?_⟩
    rw [Bool.eq_false_iff]
    intro line
    exact other (same ▸ cut_lineEnd line _)

namespace Spelling

theorem respell_replaces {prefixes : Prefixes} (writable : prefixes.Writable) (chosen : Nat → Bool)
    {input : List Lexeme} (legible : Legible input) :
    Replaces (respell prefixes chosen input) input := by
  -- What is passed in one step is kept or replaced before what the rest is replaced by.
  induction length : input.length using Nat.strongRecOn generalizing input with
  | ind size ih =>
    cases input with
    | nil => exact ⟨by simpa using legible, by simpa using .of_head? rfl⟩
    | cons first input =>
      obtain ⟨rest, suffix, step⟩ := respell_cases prefixes chosen first input
      have whole : first :: upTo rest input ++ rest = first :: input := by
        rw [List.cons_append, append_upTo suffix]
      have shorter : rest.length < size := by
        rw [← length, List.length_cons]
        exact Nat.lt_succ_of_le suffix.length_le
      rw [← whole] at legible
      have replaces := ih rest.length shorter legible.suffix rfl
      rcases step with kept | ⟨label, name, iri, found, known, replaced⟩
      · rw [kept, ← whole]
        exact replaces.append legible
      · rw [whole] at legible
        have formed : AllFormed (first :: input) := legible ▸ Lexeme.lexemesOf_formed _
        have word := (shortName_of_shortName? found).isWord formed
        have within : first.token ≠ .eol := by
          rcases starts_of_shortName? found with kind | kind <;> simp [kind]
        rw [replaced]
        exact .iri (writesNames_globally writable word known) replaces.legible legible within

end Spelling

/-! ## Documents -/

namespace Document

variable {settings : Settings} {start after : Session Catalogue} {ontology : Ontology}
  {statements : List Statement} {input : List Lexeme}

theorem Completes.last (completes : Completes settings start ontology statements after)
    (noEof : start.stream.NoEof) :
    ∀ lexeme ∈ start.stream.ahead.getLast?, lexeme.token ≠ .string := by
  obtain ⟨parts, spells, whole⟩ := completes.exists_partition noEof
  obtain ⟨left, ⟨literal, closes⟩, ended⟩ := spells.closes
  obtain ⟨silent, -, same⟩ := Spelling.exists_silent parts.closing
  rw [closes] at same
  obtain ⟨before, split⟩ : ∃ before,
      start.stream.ahead = before ++ ⟨.closeParen, literal⟩ :: left := by
    refine ⟨parts.opening ++ (parts.body.flatMap (·.2) ++ silent), ?_⟩
    rw [← whole, Partition.lexemes, Partition.inside, same]
    simp only [List.append_assoc]
  intro lexeme member
  rw [split, List.getLast?_append_of_ne_nil _ (List.cons_ne_nil _ _)] at member
  rcases List.mem_cons.mp (List.mem_of_getLast? member) with rfl | member
  · simp
  · have trivia := List.dropWhile_eq_nil_iff.mp ended lexeme member
    rintro string
    simp [string, Token.isTrivia] at trivia

/-- In the body of a document that is read to its end short names can be replaced. The document is
read to its end again, with statements of the same content. -/
theorem Completes.respell (completes : Completes settings start ontology statements after)
    (lenient : settings.strict = false) (begins : start.Begins input)
    (blank : start.store.Tallies []) :
    ∃ bindings opening inside, Opening bindings ontology opening [] ∧
      ontology.prefixes = settings.prefixes.override bindings ∧ input = opening ++ inside ∧
      ∀ {chosen : Nat → Bool} {twin : Session Catalogue},
        twin.Begins (opening ++ respell ontology.prefixes chosen inside) →
        twin.store = start.store →
        ∃ found final, Completes settings twin ontology found final ∧
          List.Forall₂ SameContent statements found := by
  obtain ⟨-, -, timely⟩ := completes.tallies begins.noEof blank
  obtain ⟨read, chain, close, finish, rfl⟩ := completes
  obtain ⟨bindings, opening, inside, cut, middleAt, -, extended, opened, reopen⟩ :=
    read.preamble_again (Nat.lt_succ_self _) begins
  have untouched := read.store_of_looksUp (.preamble ..)
  have empty := blank
  rw [← untouched] at empty
  have apart := chain.nodup_declaredBy middleAt (Nat.lt_succ_self _) empty List.nodup_nil
  obtain ⟨⟨closing, stated, lastAt⟩, -, held⟩ := Recognition.accepted_spelled chain middleAt
  have closes : Closes closing _ := Recognition.statement?_spelled close lastAt
  have ended := Recognition.ending_spelled finish (close.atItself lastAt)
  refine ⟨bindings, opening, inside, by simpa using opened [], extended, cut, ?_⟩
  intro chosen twin again stored
  -- The statements are spelled by other lexemes now, which fall into pieces of their own.
  have respelled : Spelling.Sequence (Spelling.Sentence ontology.prefixes) _
      (respell ontology.prefixes chosen inside) (respell ontology.prefixes chosen closing) :=
    stated.respelled fun sentence => sentence.respelled
  obtain ⟨body, same, parts, spelled⟩ := respelled.exists_pieces
  rw [← same] at apart timely held ⊢
  have states : ∀ piece ∈ body, States ontology.prefixes piece := fun piece member =>
    ⟨spelled piece member, fun reference refers =>
      (held piece.1 (List.mem_map_of_mem member) reference refers).1⟩
  obtain ⟨middle, reread, againAt⟩ :=
    reopen again (fun _ known => stored ▸ known) (Nat.lt_succ_self _)
      (body_first respelled closes.respelled)
  rw [parts] at againAt
  have kept := (reread.store_of_looksUp (.preamble ..)).trans stored
  have none : significant (respell ontology.prefixes chosen _) = [] :=
    (Spelling.significant_respell _).trans (by rw [ended, Spelling.respell_nil])
  refine exists_completes_again reread againAt closes.respelled none ?_ apart (kept ▸ blank)
  intro before piece others split
  have checks : settings.checks = .lenient := by simp [Settings.checks, lenient]
  rw [checks, kept]
  refine (states piece (by simp [split])).restates fun explicit => ?_
  exact timely explicit (before.map (·.1)) piece.1 (others.map (·.1)) (by simp [split])

theorem opening_unique {bindings others : List Binding} {opening another inside rest : List Lexeme}
    (one : Opening bindings ontology opening []) (two : Opening others ontology another [])
    (same : opening ++ inside = another ++ rest) : opening = another ∧ inside = rest := by
  have later := two.before rest
  rw [← same] at later
  obtain rfl := (one.before inside).unique later
  exact ⟨List.append_cancel_right same, rfl⟩

theorem lexemesOf_respell {text : List Char} {bindings : List Binding}
    {opening inside : List Lexeme} (opens : Opening bindings ontology opening [])
    (extended : ontology.prefixes = settings.prefixes.override bindings)
    (writable : settings.prefixes.Writable) (cut : lexemesOf text = opening ++ inside)
    (last : ∀ lexeme ∈ (lexemesOf text).getLast?, lexeme.token ≠ .string) :
    text = asText (opening ++ inside) ∧ ∀ chosen,
      lexemesOf (asText (opening ++ respell ontology.prefixes chosen inside)) =
        opening ++ respell ontology.prefixes chosen inside := by
  have written := asText_lexemesOf last
  rw [cut] at written
  have legible : Legible (opening ++ inside) := by rw [Legible, written, cut]
  have formed : Spelling.AllFormed opening := fun lexeme member =>
    lexemesOf_formed text lexeme (cut ▸ List.mem_append_left inside member)
  obtain ⟨middle, bound, -⟩ := opens
  have spaces : ontology.prefixes.Writable := by
    rw [extended]
    exact writable.override fun binding member =>
      ((Spelling.bound_parts bound formed).2 binding member).2
  refine ⟨written.symm, fun chosen => ?_⟩
  exact ((Spelling.respell_replaces spaces chosen legible.suffix).append legible).legible

/-- The spelling of names. In lenient mode any short names in the body of an accepted document can
be replaced by the identifiers they stand for, in brackets. What is written then has the lexemes of
the replacements, and it is accepted with the same ontology and leaves the same catalogue. The
namespaces that are bound before the document have to fit between brackets. -/
theorem read_respelled {source : String} {input : Input}
    (accepted : (read settings source input).result = .ok ontology)
    (lenient : settings.strict = false) (writable : settings.prefixes.Writable) :
    (∃ bindings opening inside, Opening bindings ontology opening [] ∧
      lexemesOf input.chars = opening ++ inside) ∧
    ∀ bindings opening inside, Opening bindings ontology opening [] →
      lexemesOf input.chars = opening ++ inside →
      input.chars = asText (opening ++ inside) ∧
      ∀ (chosen : Nat → Bool) (name : String),
        let text := asText (opening ++ respell ontology.prefixes chosen inside)
        let again := read settings name (.ofString (.ofList text))
        lexemesOf text = opening ++ respell ontology.prefixes chosen inside ∧
          again.result = .ok ontology ∧
          again.session.store = (read settings source input).session.store := by
  obtain ⟨statements, after, completes, stored⟩ := completes_of_ok accepted
  have begins := opened_begins settings source input
  have empty := opened_store settings source input
  obtain ⟨policy, records⟩ := completes.records begins.noEof empty
  obtain ⟨bindings, opening, inside, opens, extended, cut, respelled⟩ :=
    completes.respell lenient begins (empty ▸ Catalogue.tallies_empty settings.policy)
  have last := completes.last begins.noEof
  rw [begins.ahead] at last
  refine ⟨⟨bindings, opening, inside, opens, cut⟩, fun others another rest also whole => ?_⟩
  obtain ⟨rfl, rfl⟩ := opening_unique also opens (whole.symm.trans cut)
  obtain ⟨written, lexemes⟩ := lexemesOf_respell opens extended writable cut last
  refine ⟨written, fun chosen name => ?_⟩
  intro text again
  have read : lexemesOf text = another ++ respell ontology.prefixes chosen rest := lexemes chosen
  -- The replacements are read first, and then the text that they are written as.
  have visible : ∀ lexeme ∈ another ++ respell ontology.prefixes chosen rest,
      lexeme.token ≠ .eof := by
    rw [← read]
    exact fun lexeme member => (lexemesOf_formed text lexeme member).ne_eof
  obtain ⟨found, final, finishes, same⟩ :=
    respelled (before_begins settings visible) ((before_store settings _).trans empty.symm)
  have laid : LaidAlike (another ++ respell ontology.prefixes chosen rest)
      (lexemesOf (Input.ofString (.ofList text)).chars) := by
    rw [Input.chars_ofString, String.toList_ofList, read]
    exact .refl _
  obtain ⟨told, kept, recorded⟩ :=
    records_of_laidAlike name visible (Input.fault_ofString _) laid finishes same
  refine ⟨read, told, Eq.trans ?_ stored.symm⟩
  exact records.eq recorded (List.Perm.refl _) (kept.trans policy.symm) rfl rfl

theorem writable_bind {bound : Settings} {label space : String}
    (binds : settings.bind label space = .ok bound) (writable : settings.prefixes.Writable) :
    bound.prefixes.Writable := by
  unfold Settings.bind at binds
  split at binds
  · simp at binds
  · next allowed =>
    obtain rfl := Except.ok.inj binds
    exact writable.insert (Iri.writable_of_refusal?_eq_none allowed)

def abbreviated : String :=
  "Prefix(:=<a:>)Ontology(<o:o>Declaration(Class(:Class))" ++
    "SubClassOf(:Class x:B)ClassAssertion(:Class _:b))"

def spelledOut : String :=
  "Prefix(:=<a:>)Ontology(<o:o>Declaration(Class(:Class))" ++
    "SubClassOf(<a:Class> <http://x#B>)ClassAssertion(<a:Class> _:b))"

def abbreviatedOpening : List Lexeme :=
  [⟨.keyword .prefixBinding, "Prefix"⟩, ⟨.openParen, "("⟩, ⟨.colon, ":"⟩, ⟨.equals, "="⟩,
    ⟨.iri, "<a:>"⟩, ⟨.closeParen, ")"⟩, ⟨.keyword .ontology, "Ontology"⟩, ⟨.openParen, "("⟩,
    ⟨.iri, "<o:o>"⟩]

theorem read_spelledOut_like_abbreviated :
    let settings : Settings := { policy := .implicit, prefixes := Prefixes.empty.insert "x" "http://x#" }
    let ontology : Ontology := ⟨⟨"o:o"⟩, none, settings.prefixes.insert "" "a:"⟩
    let one := read settings "" (.ofString abbreviated)
    let two := read settings "" (.ofString spelledOut)
    Settings.bind { policy := .implicit } "x" "http://x#" = .ok settings ∧
    one.result = .ok ontology ∧
    one.session.store.entries.get .owlClass =
      [⟨⟨"a:Class"⟩, .explicit⟩, ⟨⟨"http://x#B"⟩, .implicit⟩] ∧
    two.result = .ok ontology ∧ two.session.store = one.session.store := by
  intro settings ontology one two
  have allowed : Iri.refusal? "http://x#" = none := by decide +kernel
  have binds : Settings.bind { policy := .implicit } "x" "http://x#" = .ok settings := by
    rw [Settings.bind, allowed]
  have accepted : one.result = .ok ontology := by decide +kernel
  have classes : one.session.store.entries.get .owlClass =
      [⟨⟨"a:Class"⟩, .explicit⟩, ⟨⟨"http://x#B"⟩, .implicit⟩] := by decide +kernel
  have opens : Opening [⟨"", "a:"⟩] ontology abbreviatedOpening [] :=
    ⟨_, .cons ⟨_, _, _, _, _, ⟨_, ⟨_, rfl⟩, _, rfl⟩, .empty, ⟨_, rfl⟩, ⟨_, rfl⟩, rfl, _, rfl⟩ .nil,
      _, _, ⟨_, ⟨_, rfl⟩, _, rfl⟩, rfl, rfl⟩
  have writable := writable_bind binds (by simp [Prefixes.Writable, Prefixes.empty])
  have cut : lexemesOf (Input.ofString abbreviated).chars =
      abbreviatedOpening ++ (lexemesOf (Input.ofString abbreviated).chars).drop 9 := by
    decide +kernel
  -- The last short name that is kept is the one with 21 lexemes after it.
  have text : String.ofList (asText (abbreviatedOpening ++ respell ontology.prefixes (· < 21)
      ((lexemesOf (Input.ofString abbreviated).chars).drop 9))) = spelledOut := by
    decide +kernel
  obtain ⟨-, others⟩ := read_respelled accepted rfl writable
  obtain ⟨-, respelled⟩ := others _ _ _ opens cut
  obtain ⟨-, told, stored⟩ := respelled (· < 21) ""
  rw [text] at told stored
  exact ⟨binds, accepted, classes, told, stored⟩

end Document

end OwlFunctional
