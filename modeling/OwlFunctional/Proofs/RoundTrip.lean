import OwlFunctional.Proofs.Consistency
import OwlFunctional.Proofs.Identifier
import OwlFunctional.Proofs.Printing.Names

/-! What was read is written as a document that gives the same again.

The written document declares every entity, also those that were only used, and spells all names in
full. So it can be read without abbreviations and under the explicit policy.
-/

set_option autoImplicit false

namespace OwlFunctional

open Spelling Lexeme

/-! ## Statements that fill an empty catalogue -/

namespace Entry

def declared (entry : Entry) : Entry := ⟨entry.iri, .explicit⟩

theorem origin?_eq_none {entries : List Entry} {entry : Entry}
    (below : ∀ other ∈ entries, other.key < entry.key) : origin? entries entry.iri = none := by
  have absent : entries.find? (fun other => other.iri == entry.iri) = none := by
    rw [List.find?_eq_none]
    intro other member same
    have names : other.iri = entry.iri := by simpa using same
    have less := below other member
    rw [key, key, names] at less
    exact String.lt_irrefl _ less
  rw [origin?, absent]
  rfl

end Entry

namespace Catalogue

/-- An entity is declared, wherever that may be. -/
def restate (declared : Declaration) : Statement := .declaration declared [] default

theorem Admits.append {first second third : Catalogue} {statements others : List Statement}
    (before : first.Admits statements second) (after : second.Admits others third) :
    first.Admits (statements ++ others) third := by
  induction before with
  | none => exact after
  | more resolve takes admits ih => exact .more resolve takes (ih after)

theorem admits_declarations (kind : EntityKind) {entries : List Entry} {table : Catalogue}
    (ordered : Ordered Entry.key (table.entries.get kind ++ entries)) :
    ∃ after, table.Admits (entries.map fun entry => restate ⟨kind, entry.iri⟩) after ∧
      after.entries.get kind = table.entries.get kind ++ entries.map Entry.declared ∧
      (∀ other, other ≠ kind → after.entries.get other = table.entries.get other) ∧
      after.axioms = table.axioms ∧ after.traits = table.traits := by
  induction entries generalizing table with
  | nil => exact ⟨table, .none, by simp, fun _ _ => rfl, rfl, rfl⟩
  | cons entry entries ih =>
    have below : ∀ other ∈ table.entries.get kind, other.key < entry.key :=
      fun other member => (List.pairwise_append.mp ordered).2.2 other member entry List.mem_cons_self
    have takes : table.write (restate ⟨kind, entry.iri⟩) = (true, table.list kind entry.declared) := by
      have absent : table.origin? kind entry.iri = none := Entry.origin?_eq_none below
      simp [write, restate, declare, absent, Entry.declared]
    have listed : (table.list kind entry.declared).entries.get kind =
        table.entries.get kind ++ [entry.declared] := by
      rw [list, ByKind.get_set_self]
      exact placeBy_last below
    have later : Ordered Entry.key ((table.list kind entry.declared).entries.get kind ++ entries) := by
      rw [listed]
      refine ordered.congr ?_
      simp [Entry.key, Entry.declared]
    obtain ⟨after, admits, found, others, axioms, traits⟩ := ih later
    refine ⟨after, .more (by simp [restate, Statement.references]) takes admits, ?_, ?_, axioms, traits⟩
    · rw [found, listed, List.append_assoc]
      rfl
    · intro other different
      rw [others other different]
      exact ByKind.get_set_of_ne _ _ different

def declarationsOf (catalogue : Catalogue) (kinds : List EntityKind) : List Statement :=
  kinds.flatMap fun kind => (catalogue.declarations kind).map restate

theorem admits_kinds (catalogue : Catalogue) {kinds : List EntityKind} (distinct : kinds.Nodup) {table : Catalogue}
    (blank : ∀ kind ∈ kinds, table.entries.get kind = []) :
    ∃ after, table.Admits (catalogue.declarationsOf kinds) after ∧
      (∀ kind ∈ kinds, after.entries.get kind = (catalogue.entries.get kind).map Entry.declared) ∧
      (∀ kind, kind ∉ kinds → after.entries.get kind = table.entries.get kind) ∧
      after.axioms = table.axioms ∧ after.traits = table.traits := by
  induction kinds generalizing table with
  | nil => exact ⟨table, .none, by simp, fun _ _ => rfl, rfl, rfl⟩
  | cons kind kinds ih =>
    obtain ⟨fresh, distinct⟩ := List.nodup_cons.mp distinct
    have empty := blank kind List.mem_cons_self
    have ordered : Ordered Entry.key (table.entries.get kind ++ catalogue.entries.get kind) := by
      rw [empty]
      exact catalogue.ordered kind
    obtain ⟨middle, admits, found, unchanged, axioms, traits⟩ := admits_declarations kind ordered
    have later : ∀ other ∈ kinds, middle.entries.get other = [] := by
      intro other member
      rw [unchanged other fun same => fresh (same ▸ member)]
      exact blank other (List.mem_cons_of_mem _ member)
    obtain ⟨after, others, known, outside, sameAxioms, sameTraits⟩ := ih distinct later
    refine ⟨after, ?_, ?_, ?_, sameAxioms.trans axioms, sameTraits.trans traits⟩
    · rw [declarationsOf, List.flatMap_cons, declarations, List.map_map]
      exact admits.append others
    · rw [List.forall_mem_cons]
      refine ⟨?_, known⟩
      rw [outside kind fresh, found, empty, List.nil_append]
    · intro other different
      rw [List.mem_cons, not_or] at different
      rw [outside other different.2, unchanged other different.1]

theorem admits_assertions (table : Catalogue) {axioms : List AnnotatedAxiom}
    (resolve : ∀ annotated ∈ axioms, ∀ declaration ∈ (Statement.assertion annotated).references,
      table.Resolves declaration) :
    ∃ after, table.Admits (axioms.map .assertion) after ∧ after.entries = table.entries ∧
      after.axioms.toList = table.axioms.toList ++ axioms ∧
      after.traits = axioms.foldl noteTraits table.traits := by
  induction axioms generalizing table with
  | nil => exact ⟨table, .none, rfl, by simp, rfl⟩
  | cons annotated axioms ih =>
    obtain ⟨first, others⟩ := List.forall_mem_cons.mp resolve
    have unchanged := note_eq annotated.statement table
    have entries : (table.add annotated).entries = table.entries := by
      rw [add, unchanged]
    have policy : (table.add annotated).policy = table.policy := by
      rw [add, unchanged]
    have traits : (table.add annotated).traits = noteTraits table.traits annotated :=
      note_traits annotated table
    have added : (table.add annotated).axioms.toList = table.axioms.toList ++ [annotated] :=
      table.write_axioms (.assertion annotated)
    obtain ⟨after, admits, sameEntries, allAxioms, allTraits⟩ := ih _ fun other member declaration used =>
      (others other member declaration used).imp_right
        (Or.imp policy.trans (table.keeps_add annotated declaration))
    refine ⟨after, .more first rfl admits, sameEntries.trans entries, ?_, ?_⟩
    · rw [allAxioms, added, List.append_assoc]
      rfl
    · rw [allTraits, traits]
      rfl

def restated (catalogue : Catalogue) : List Statement :=
  catalogue.declarationsOf EntityKind.all ++ catalogue.axioms.toList.map .assertion

/-- The statements fill an empty catalogue so that it has the same entities, all of them declared,
with the same axioms and characteristics. -/
theorem admits_restated {catalogue : Catalogue} (consistent : catalogue.Consistent)
    (held : ∀ annotated ∈ catalogue.axioms.toList,
      ∀ declaration ∈ (Statement.assertion annotated).references, catalogue.Holds declaration) :
    ∃ after, (empty .explicit).Admits catalogue.restated after ∧
      (∀ kind, after.entries.get kind = (catalogue.entries.get kind).map Entry.declared) ∧
      after.axioms = catalogue.axioms ∧ after.traits = catalogue.traits := by
  have blank : ∀ kind ∈ EntityKind.all, (empty .explicit).entries.get kind = [] := by decide
  obtain ⟨middle, declares, known, -, axioms, traits⟩ :=
    admits_kinds catalogue (by decide) blank
  have lists (declaration : Declaration) (listed : catalogue.Lists declaration) :
      middle.Lists declaration := by
    obtain ⟨entry, member, same⟩ := lists_iff.mp listed
    refine lists_iff.mpr ⟨entry.declared, ?_, same⟩
    rw [known declaration.kind declaration.kind.mem_all]
    exact List.mem_map_of_mem member
  obtain ⟨after, asserts, entries, allAxioms, allTraits⟩ := admits_assertions middle
    fun annotated member declaration used =>
      (held annotated member declaration used).imp_right fun listed => .inr (lists declaration listed)
  refine ⟨after, declares.append asserts, fun kind => ?_, ?_, ?_⟩
  · rw [entries, known kind kind.mem_all]
  · apply Array.toList_inj.mp
    rw [allAxioms, axioms]
    simp [empty]
  · rw [allTraits, traits, consistent]
    rfl

theorem counts_of_declared {first second : Catalogue} {kind : EntityKind}
    (same : second.entries.get kind = (first.entries.get kind).map Entry.declared) :
    second.declarations kind = first.declarations kind ∧
      second.countOf .explicit kind = first.count kind ∧ second.countOf .implicit kind = 0 := by
  refine ⟨?_, ?_, ?_⟩
  · rw [declarations, declarations, same, List.map_map]
    rfl
  · rw [countOf, count, same, List.countP_map, List.countP_eq_length.mpr]
    exact fun entry _ => rfl
  · rw [countOf, same, List.countP_map, List.countP_eq_zero]
    exact fun entry _ => by simp [Entry.declared]

end Catalogue

def Settings.bindAll (settings : Settings) (bindings : List Binding) : Except IriError Settings :=
  bindings.foldlM (fun bound binding => bound.bind binding.label binding.space) settings

/-! ## The written document -/

def Statement.render : Statement → String
  | .declaration declared _ _ => declared.render
  | .assertion annotated => annotated.render

structure Printable (ontology : Ontology) (catalogue : Catalogue) : Prop where
  prefixes : ontology.prefixes.Printable
  iri : ontology.iri.Writable
  version : ∀ name ∈ ontology.version, name.Writable
  names : catalogue.Writable
  axioms : ∀ annotated ∈ catalogue.axioms.toList,
    Shut (Sentence ontology.prefixes (.assertion annotated)) annotated.render.toList

namespace Document

theorem toList_lines (statements : List Statement) :
    ((statements.map Statement.render).foldr (fun line text => line ++ "\n" ++ text) "").toList =
      statements.flatMap fun statement => statement.render.toList ++ ['\n'] := by
  induction statements with
  | nil => rfl
  | cons statement others ih => simp [ih]

theorem toList_render (ontology : Ontology) (catalogue : Catalogue) :
    (render ontology catalogue).toList =
      ontology.prefixes.render.toList ++ ((Keyword.ontology.text.toList ++ ['('] ++
        (ontology.iri.render.toList ++ versionText ontology.version ++ ['\n'])) ++
        ((catalogue.restated.flatMap fun statement => statement.render.toList ++ ['\n']) ++
          [')'])) := by
  have word : Keyword.ontology.text = "Ontology" := rfl
  have lines : catalogue.restated.map Statement.render =
      EntityKind.all.flatMap (fun kind => (catalogue.declarations kind).map (·.render)) ++
        catalogue.axioms.toList.map (·.render) := by
    simp [Catalogue.restated, Catalogue.declarationsOf, Statement.render, Catalogue.restate,
      List.map_flatMap, Function.comp_def]
  rw [← toList_lines, lines, render]
  cases ontology.version <;> simp [versionText, word]

/-- The written form of an ontology spells it, with one statement for each entity and each axiom. -/
theorem render_spelled {ontology : Ontology} {catalogue : Catalogue}
    (printable : Printable ontology catalogue) :
    Spelling.Document .empty ontology.prefixes.bindings ontology catalogue.restated
      (lexemesOf (render ontology catalogue).toList) := by
  have stated : ∀ statement ∈ catalogue.restated,
      Shut (Sentence ontology.prefixes statement) statement.render.toList := by
    intro statement member
    rcases List.mem_append.mp member with member | member
    · obtain ⟨kind, -, member⟩ := List.mem_flatMap.mp member
      obtain ⟨declared, listed, rfl⟩ := List.mem_map.mp member
      obtain ⟨entry, present, rfl⟩ := List.mem_map.mp listed
      have writable := printable.names ⟨kind, entry.iri⟩
        (Catalogue.lists_iff.mpr ⟨entry, present, rfl⟩)
      exact shut_declaration writable default ontology.prefixes
    · obtain ⟨annotated, listed, rfl⟩ := List.mem_map.mp member
      exact printable.axioms annotated listed
  have text := (loose_bindings printable.prefixes.labels printable.prefixes.spaces).append
    ((loose_header printable.iri printable.version).append
      ((loose_lines fun statement member => (stated statement member).line).append shut_closes.loose))
  obtain ⟨rest, ⟨first, bound, second, headed, third, body, closes⟩, ended⟩ :=
    text (lexemesOf (render ontology catalogue).toList) [] (by rw [List.append_nil, toList_render])
  exact ⟨ontology.prefixes.ordered.nodup, ontology.prefixes.override_empty.symm, first, second,
    third, rest, bound, headed, body, closes, ended⟩

theorem Completes.asserted {settings : Settings} {start after : Session Catalogue}
    {ontology : Ontology} {statements : List Statement} {annotated : AnnotatedAxiom}
    (completes : Completes settings start ontology statements after)
    (blank : start.store.axioms = #[]) (member : annotated ∈ after.store.axioms.toList) :
    .assertion annotated ∈ statements := by
  rw [completes.axioms, blank, List.nil_append, List.mem_filterMap] at member
  obtain ⟨statement, member, asserted⟩ := member
  cases statement with
  | declaration declared notes position => simp [Statement.asserted?] at asserted
  | assertion found =>
    obtain rfl := Option.some.inj asserted
    exact member

theorem Completes.printable {settings : Settings} {start after : Session Catalogue}
    {ontology : Ontology} {statements : List Statement}
    (completes : Completes settings start ontology statements after) (noEof : start.stream.NoEof)
    (formed : AllFormed start.stream.ahead) (prefixes : settings.prefixes.Printable)
    (blank : start.store.axioms = #[]) (writable : start.store.Writable) :
    Printable ontology after.store := by
  obtain ⟨⟨bindings, -, same, first, second, third, fourth, bound, headed, stated, -⟩, -⟩ :=
    completes.spelled noEof
  obtain ⟨formedHeader, known⟩ := bound_parts bound formed
  obtain ⟨formedBody, iri, version⟩ := headed.parts formedHeader
  have abbreviations : ontology.prefixes.Printable := same ▸ prefixes.override known
  refine ⟨abbreviations, iri, version,
    completes.writable noEof formed abbreviations.spaces writable, fun annotated member => ?_⟩
  have spelled := stated.forall_of_formed formedBody (fun sentence => sentence.isLocal.framed)
    (P := fun statement => ∀ annotated, statement = .assertion annotated →
      Shut (Sentence ontology.prefixes (.assertion annotated)) annotated.render.toList)
    fun sentence formed annotated same =>
      Sentence.shut (same ▸ sentence) formed abbreviations.spaces ontology.prefixes
  exact spelled _ (completes.asserted blank member) annotated rfl

theorem printable_of_binds {bindings : List Binding} {start settings : Settings}
    (bound : start.bindAll bindings = .ok settings)
    (plain : ∀ binding ∈ bindings, binding.label = "" ∨
      lexemesOf binding.label.toList = [⟨.word, binding.label⟩])
    (printable : start.prefixes.Printable) : settings.prefixes.Printable := by
  induction bindings generalizing start with
  | nil =>
    obtain rfl := Except.ok.inj bound
    exact printable
  | cons binding others ih =>
    obtain ⟨first, others⟩ := List.forall_mem_cons.mp plain
    rw [Settings.bindAll, List.foldlM_cons] at bound
    obtain ⟨middle, binds, bound⟩ := exists_of_bind_ok bound
    have label : IsLabel binding.label := by
      refine first.imp_right fun word => ?_
      have formed := lexemesOf_formed binding.label.toList ⟨.word, binding.label⟩ (by simp [word])
      obtain ⟨isWord, reserved⟩ := formed.isWord rfl
      exact ⟨isWord, reserved.symm⟩
    unfold Settings.bind at binds
    split at binds
    · simp at binds
    · next accepted =>
      obtain rfl := Except.ok.inj binds
      exact ih bound others (printable.insert label (Iri.writable_of_refusal?_eq_none accepted))

theorem read_of_spelled {bindings : List Binding} {ontology : Ontology}
    {statements : List Statement} {text : String} {store : Catalogue}
    (spelled : Spelling.Document .empty bindings ontology statements (lexemesOf text.toList))
    (admits : (Catalogue.empty .explicit).Admits statements store) (source : String) :
    (read {} source (.ofString text)).result = .ok ontology ∧
      (read {} source (.ofString text)).session.store = store := by
  have begins := opened_begins {} source (.ofString text)
  rw [Input.chars_ofString] at begins
  obtain ⟨found, after, completes, rfl⟩ :=
    exists_completes {} spelled rfl rfl admits begins.atInput
  exact completes.told (Stream.ofInput_tracks_none source (Input.fault_ofString text))

/-- Every ontology that is read can be written as a document that gives the same again: the same
header and abbreviations, the same axioms, all entities, now all of them declared, and the same
characteristics. -/
theorem read_render {policy : Policy} {strict logsTokens : Bool} {bindings : List Binding}
    {settings : Settings} {source : String} (again : String) {input : Input} {ontology : Ontology}
    (bound : Settings.bindAll { policy := policy, strict := strict, logsTokens := logsTokens }
      bindings = .ok settings)
    (plain : ∀ binding ∈ bindings, binding.label = "" ∨
      lexemesOf binding.label.toList = [⟨.word, binding.label⟩])
    (accepted : (read settings source input).result = .ok ontology) :
    let first := (read settings source input).session.store
    let second := read {} again (.ofString (render ontology first))
    second.result = .ok ontology ∧ second.session.store.axioms = first.axioms ∧
      (∀ kind, second.session.store.declarations kind = first.declarations kind ∧
        second.session.store.countOf .explicit kind = first.count kind ∧
        second.session.store.countOf .implicit kind = 0) ∧
      ∀ iri, second.session.store.characteristics iri = first.characteristics iri := by
  intro first second
  obtain ⟨statements, after, completes, stored⟩ := completes_of_ok accepted
  change first = after.store at stored
  obtain ⟨ahead, noEof, -⟩ := opened_begins settings source input
  have formed : AllFormed (prepare settings (opened settings source input)).stream.ahead := by
    rw [ahead]
    exact lexemesOf_formed input.chars
  have untouched : (prepare settings (opened settings source input)).store =
      .empty settings.policy := prepare_store settings _
  have blank : (Catalogue.empty settings.policy).Writable := by
    intro declaration listed
    obtain ⟨entry, member, -⟩ := Catalogue.lists_iff.mp listed
    cases kind : declaration.kind <;> rw [kind] at member <;>
      simp [Catalogue.empty, ByKind.fill, ByKind.get] at member
  -- What the document listed was spelled in it, and so every name of it can be written.
  have printable : Printable ontology first := by
    rw [stored]
    exact completes.printable noEof formed (printable_of_binds bound plain Prefixes.printable_empty)
      (by rw [untouched]; rfl) (untouched ▸ blank)
  have consistent : first.Consistent := by
    rw [stored]
    exact completes.consistent (untouched ▸ Catalogue.consistent_empty settings.policy)
  have held : ∀ annotated ∈ first.axioms.toList,
      ∀ declaration ∈ (Statement.assertion annotated).references, first.Holds declaration := by
    rw [stored]
    exact fun annotated member =>
      (completes.spelled noEof).2 _ (completes.asserted (by rw [untouched]; rfl) member)
  obtain ⟨final, admits, entries, axioms, traits⟩ := Catalogue.admits_restated consistent held
  obtain ⟨result, same⟩ := read_of_spelled (render_spelled printable) admits again
  change second.session.store = final at same
  rw [same]
  refine ⟨result, axioms, fun kind => Catalogue.counts_of_declared (entries kind), fun iri => ?_⟩
  rw [Catalogue.characteristics, Catalogue.characteristics, traits]

def usedClasses : Input where
  bytes := "Prefix(p:=<b:>)Ontology(<o:o>SubClassOf(:A ObjectComplementOf(p:B)))".toList.map
    fun letter => .ofNat letter.toNat

theorem read_render_used_classes :
    let settings : Settings := { policy := .implicit, prefixes := Prefixes.empty.insert "" "a:" }
    let ontology : Ontology := ⟨⟨"o:o"⟩, none, (Prefixes.empty.insert "" "a:").insert "p" "b:"⟩
    let first := (read settings "" usedClasses).session.store
    let second := read {} "" (.ofString (render ontology first))
    (Settings.bindAll { policy := .implicit } [⟨"", "a:"⟩] = .ok settings ∧
      (read settings "" usedClasses).result = .ok ontology) ∧
      second.result = .ok ontology ∧ second.session.store.axioms = first.axioms ∧
      second.session.store.countOf .explicit .owlClass = first.count .owlClass := by
  intro settings ontology first second
  have bound : Settings.bindAll { policy := .implicit } [⟨"", "a:"⟩] = .ok settings := rfl
  have plain : ∀ binding ∈ [(⟨"", "a:"⟩ : Binding)], binding.label = "" ∨
      lexemesOf binding.label.toList = [⟨.word, binding.label⟩] := by simp
  have accepted : (read settings "" usedClasses).result = .ok ontology := by decide +kernel
  obtain ⟨result, axioms, counts, -⟩ := read_render "" bound plain accepted
  exact ⟨⟨bound, accepted⟩, result, axioms, (counts .owlClass).2.1⟩

end Document

end OwlFunctional
