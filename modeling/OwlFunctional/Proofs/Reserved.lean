import OwlFunctional.Proofs.Advance
import OwlFunctional.Proofs.Entities

/-! The names of the language itself.

Where a class, a property or an individual is referred to, a name from the namespace of the language
is refused, unless it is built in there. So no such name is ever listed as used, nor does an axiom
refer to it. Datatypes are the exception: there any name of that namespace is taken like a name of
the document.
-/

set_option autoImplicit false

namespace OwlFunctional

namespace Catalogue

def UsesOnly (entities : Declaration → Prop) (catalogue : Catalogue) : Prop :=
  ∀ declaration, catalogue.origin? declaration.kind declaration.iri = some .implicit →
    entities declaration

variable {entities : Declaration → Prop} {catalogue : Catalogue}

theorem usesOnly_empty (policy : Policy) : (empty policy).UsesOnly entities := by
  intro declaration used
  have listed := (tallies_empty policy).lists declaration
  rw [Lists, used] at listed
  simp [declaredBy, usedBy] at listed

theorem UsesOnly.list (declared : Declaration) {origin : Origin}
    (uses : catalogue.UsesOnly entities) (given : origin = .explicit ∨ entities declared) :
    (catalogue.list declared.kind ⟨declared.iri, origin⟩).UsesOnly entities := by
  intro declaration used
  rw [origin?_list] at used
  split at used
  · next same =>
    obtain rfl := Option.some.inj used
    exact same ▸ given.resolve_left (by simp)
  · exact uses declaration used

theorem UsesOnly.lookup {kind : EntityKind} {iri : Iri} (uses : catalogue.UsesOnly entities)
    (given : entities ⟨kind, iri⟩) : (catalogue.lookup kind iri).2.UsesOnly entities := by
  unfold Catalogue.lookup
  split
  · exact uses
  · exact uses
  · exact uses.list ⟨kind, iri⟩ (.inr given)

theorem UsesOnly.declare (declared : Declaration) (annotations : List Annotation)
    (uses : catalogue.UsesOnly entities) :
    (catalogue.declare declared annotations).2.UsesOnly entities := by
  have listed := uses.list declared (.inl rfl)
  unfold Catalogue.declare
  split
  · exact uses
  · dsimp only
    split <;> exact listed

theorem UsesOnly.add (annotated : AnnotatedAxiom) (uses : catalogue.UsesOnly entities) :
    (catalogue.add annotated).UsesOnly entities := by
  rw [add_eq]
  exact uses

end Catalogue

section

variable {entities : Declaration → Prop} {checks : Checks}

theorem Session.answer_usesOnly {query : Query} {session : Session Catalogue}
    (looks : query.Looks entities) (uses : session.store.UsesOnly entities) :
    (answer checks query session).2.store.UsesOnly entities := by
  cases query with
  | find kind iri =>
    have kept : (Store.find kind iri session.store).2.UsesOnly entities := uses.lookup looks
    simp only [answer]
    split
    · next found => rwa [found] at kept
    · next found => rwa [found] at kept
  | _ => exact uses

theorem Program.Asks.usesOnly {α : Type} {writing : Writing α}
    (looks : writing.Asks (Command.Looks entities)) (checks : Checks) (session : Session Catalogue)
    (uses : session.store.UsesOnly entities) :
    (writing.run (Session.writer checks) session).2.store.UsesOnly entities := by
  refine looks.run_relates
    (fun first second => first.store.UsesOnly entities → second.store.UsesOnly entities)
    (fun _ => id) (fun first second => second ∘ first) ?_ session uses
  intro command state allowed uses
  cases command with
  | query query => exact Session.answer_usesOnly allowed uses
  | declare declared annotations =>
    have kept := uses.declare declared annotations
    simp only [Session.writer]
    split
    · next taken =>
      rw [show state.store.declare declared annotations = _ from taken] at kept
      exact kept
    · next refused =>
      rw [show state.store.declare declared annotations = _ from refused] at kept
      exact kept
  | add annotated => exact uses.add annotated

end

namespace Document

theorem read_store (settings : Settings) (source : String) (input : Input) :
    (read settings source input).session.store =
      (perform settings (opened settings source input)).2.2.store := by
  rw [read, readInto_eq_conclude]
  rfl

theorem read_usesOnly (settings : Settings) (source : String) (input : Input) :
    (read settings source input).session.store.UsesOnly Declaration.Usable := by
  rw [read_store]
  -- A statement that fails has looked names up before, and these stay listed. So the argument is
  -- about all requests and not about the accepted statements.
  have start : (prepare settings (opened settings source input)).store.UsesOnly
      Declaration.Usable := by
    rw [opened_store]
    exact Catalogue.usesOnly_empty settings.policy
  have looks : LooksUp Declaration.Usable
      (preamble settings (prepare settings (opened settings source input))) := .preamble ..
  have header := looks.writing.usesOnly settings.checks _ start
  rw [Writing.run_ofReading] at header
  rcases perform_cases settings (opened settings source input) with
    ⟨error, after, failed, ends⟩ | ⟨ontology, middle, read, ends⟩
  · rw [ends]
    rwa [failed] at header
  · rw [ends]
    rw [read] at header
    exact (statements_look ontology middle).usesOnly settings.checks middle header

/-- Whatever comes of a document, the axioms and annotations it leaves are those of statements that
some of its lexemes spell. These refer to none but usable names. -/
theorem read_states (settings : Settings) (source : String) (input : Input) :
    let store := (read settings source input).session.store
    ∃ prefixes statements first rest, first <:+ Lexeme.lexemesOf input.chars ∧
      Spelling.Sequence (Spelling.Sentence prefixes) statements first rest ∧
      store.axioms.toList = statements.filterMap Statement.asserted? ∧
      store.annotated.toList = statements.filterMap Statement.noted? ∧
      ∀ reference ∈ usedBy statements, reference.Usable := by
  intro store
  obtain ⟨header, accepted, last, extra, result, after, accounts⟩ :=
    exists_accounts settings (opened settings source input)
  have course := accounts.course
  have same : store = after.store := (read_store ..).trans (by rw [accounts.performed])
  -- After the last accepted statement nothing is written, whatever comes of the document.
  rw [same, course.grows.axioms, course.grows.annotated]
  obtain ⟨ahead, noEof, -⟩ := opened_begins settings source input
  have empty := opened_store settings source input
  have blank := Catalogue.tallies_empty settings.policy
  generalize prepare settings (opened settings source input) = start at noEof ahead empty course
  have body {ontology : Ontology} {middle : Session Catalogue}
      (read : Reads settings.checks (preamble settings start) start ontology middle)
      (chain : Accepted settings.checks ⟨ontology.prefixes, limit middle⟩ middle accepted last) :
      ∃ prefixes statements first rest, first <:+ Lexeme.lexemesOf input.chars ∧
        Spelling.Sequence (Spelling.Sentence prefixes) statements first rest ∧
        last.store.axioms.toList = statements.filterMap Statement.asserted? ∧
        last.store.annotated.toList = statements.filterMap Statement.noted? ∧
        ∀ reference ∈ usedBy statements, reference.Usable := by
    have untouched := (read.store_of_looksUp (.preamble ..)).trans empty
    have middleAt := read.atItself ⟨rfl, noEof⟩
    obtain ⟨⟨rest, sequence, -⟩, -, held⟩ := Recognition.accepted_spelled chain middleAt
    have axioms := chain.axioms
    have annotated :=
      (chain.tallies middleAt (Nat.lt_succ_self _) (untouched ▸ blank)).1.annotated
    rw [show middle.store.axioms = #[] by rw [untouched]; rfl] at axioms
    refine ⟨_, _, _, rest, ?_, sequence, axioms, annotated, fun reference member => ?_⟩
    · rw [← ahead]
      exact (preamble_forward ..).suffix read
    · obtain ⟨statement, stated, refers⟩ := List.mem_flatMap.mp member
      exact (held statement stated reference refers).1
  cases course with
  | headless failed =>
    refine ⟨.empty, [], _, _, List.suffix_refl _, .nil, ?_, ?_, by simp [usedBy]⟩
    · rw [empty]
      rfl
    · rw [empty]
      rfl
  | stopped read chain halts => exact body read chain
  | closed read chain close finish => exact body read chain

theorem read_used_usable (settings : Settings) (source : String) (input : Input) :
    ∀ reference ∈ (read settings source input).session.store.used, reference.Usable := by
  intro reference member
  obtain ⟨prefixes, statements, first, rest, -, -, axioms, annotated, usable⟩ :=
    read_states settings source input
  exact usable reference ((Catalogue.mem_used_iff axioms annotated reference).mp member)

end Document

/-! ## Datatypes -/

section

variable {checks : Checks} {scope : Scope} {iri : Iri}

/-- A datatype is taken by any name that is built in or that the catalogue knows. Its namespace does
not matter. -/
theorem datatype_taken_iff {session : Session Catalogue} :
    (∃ after, Reads checks (Grammar.datatype scope) session iri after) ↔
      ∃ position between, Reads checks (Grammar.name scope) session (iri, position) between ∧
        (Vocabulary.isBuiltinDatatype iri = true ∨ between.store.Knows ⟨.datatype, iri⟩) := by
  constructor
  · rintro ⟨after, read⟩
    obtain ⟨⟨found, position⟩, between, named, read⟩ := Reads.bind_iff.mp read
    dsimp only at read
    split at read
    · next builtin =>
      obtain ⟨rfl, rfl⟩ := Reads.pure_iff.mp read
      exact ⟨position, between, named, .inl builtin⟩
    · obtain ⟨entity, _, look, read⟩ := Reads.bind_iff.mp read
      obtain ⟨rfl, rfl⟩ := Reads.pure_iff.mp read
      obtain ⟨store, found, rfl⟩ := Reads.find_iff.mp look
      exact ⟨position, between, named, .inr (look.grows.knows_of_lists (Catalogue.find_some found).2)⟩
  · rintro ⟨position, between, named, taken⟩
    cases builtin : Vocabulary.isBuiltinDatatype iri with
    | true => exact ⟨between, Reads.bind_iff.mpr ⟨_, between, named, by simp [builtin]⟩⟩
    | false =>
      obtain ⟨store, found⟩ := Catalogue.find_of_knows (taken.resolve_left (by simp [builtin]))
      refine ⟨{ between with store := store }, Reads.bind_iff.mpr ⟨_, between, named, ?_⟩⟩
      simp only [builtin, Bool.false_eq_true, if_false]
      exact Reads.bind_iff.mpr ⟨_, _, Reads.find_iff.mpr ⟨store, found, rfl⟩, by simp⟩

theorem datatypeSuffix_taken_iff {σ : Type} [Store σ] {session after : Session σ} :
    Reads checks (Grammar.datatypeSuffix scope) session (some iri) after ↔
      ∃ position marked, Reads checks (Reading.accept .doubleCaret) session true marked ∧
        Reads checks (Grammar.name scope) marked (iri, position) after := by
  constructor
  · intro read
    obtain ⟨accepted, marked, accept, read⟩ := Reads.bind_iff.mp read
    split at read
    · next same =>
      obtain ⟨⟨found, position⟩, _, named, read⟩ := Reads.bind_iff.mp read
      obtain ⟨given, rfl⟩ := Reads.pure_iff.mp read
      obtain rfl := Option.some.inj given
      exact ⟨position, marked, same ▸ accept, named⟩
    · simp at read
  · rintro ⟨position, marked, accept, named⟩
    exact Reads.bind_iff.mpr ⟨true, marked, accept, Reads.bind_iff.mpr ⟨_, after, named, by simp⟩⟩

end

theorem Declaration.Usable.datatype {kind : EntityKind} {name : String}
    (usable : Declaration.Usable ⟨kind, Vocabulary.owl name⟩) (plain : '#' ∉ name.toList) :
    kind = .datatype :=
  usable.resolve_right (Vocabulary.owlName?_owl_ne_none plain)

namespace Document

/-- A name in the namespace of the language is looked up as a datatype only, whatever the document
and the store are. So no other entity of such a name is ever listed as used, also by a document
that fails, and no axiom or annotation refers to one. A datatype of such a name is taken as any
other one, and the datatype of a literal is taken unseen. -/
theorem read_reserves_names (settings : Settings) :
    (∀ {σ : Type} [Store σ] (session state : Session σ) (kind : EntityKind) (name : String),
      '#' ∉ name.toList →
      (.query (.find kind (Vocabulary.owl name)), state) ∈ requests settings session →
      kind = .datatype) ∧
    (∀ (source : String) (input : Input) (kind : EntityKind) (name : String), '#' ∉ name.toList →
      let store := (read settings source input).session.store
      (store.origin? kind (Vocabulary.owl name) = some .implicit → kind = .datatype) ∧
      (⟨kind, Vocabulary.owl name⟩ ∈ store.used → kind = .datatype)) ∧
    ∀ (scope : Scope) (session : Session Catalogue) (iri : Iri),
      ((∃ after, Reads settings.checks (Grammar.datatype scope) session iri after) ↔
        ∃ position between,
          Reads settings.checks (Grammar.name scope) session (iri, position) between ∧
          (Vocabulary.isBuiltinDatatype iri = true ∨ between.store.Knows ⟨.datatype, iri⟩)) ∧
      ∀ after, Reads settings.checks (Grammar.datatypeSuffix scope) session (some iri) after ↔
        ∃ position marked, Reads settings.checks (Reading.accept .doubleCaret) session true marked ∧
          Reads settings.checks (Grammar.name scope) marked (iri, position) after := by
  refine ⟨?_, ?_, fun scope session iri => ⟨datatype_taken_iff, fun _ => datatypeSuffix_taken_iff⟩⟩
  · intro σ _ session state kind name plain made
    have usable : Declaration.Usable ⟨kind, Vocabulary.owl name⟩ :=
      requests_look settings session _ made
    exact usable.datatype plain
  · intro source input kind name plain store
    refine ⟨fun used => ?_, fun refers => ?_⟩
    · exact (read_usesOnly settings source input ⟨kind, _⟩ used).datatype plain
    · exact (read_used_usable settings source input _ refers).datatype plain

def reservedDatatypes : Input where
  bytes := ("Ontology(<o:o>DataPropertyRange(<a:p> <http://www.w3.org/2002/07/owl#foo>)" ++
    "DataPropertyAssertion(<a:p> <a:i> \"x\"^^<http://www.w3.org/2002/07/owl#bar>))").toList.map
      fun letter => .ofNat letter.toNat

theorem read_takes_reserved_datatypes :
    let outcome := read { policy := .implicit } "" reservedDatatypes
    let store := outcome.session.store
    outcome.result = .ok ⟨⟨"o:o"⟩, none, .empty⟩ ∧
      store.origin? .datatype (Vocabulary.owl "foo") = some .implicit ∧
      Vocabulary.isBuiltinDatatype (Vocabulary.owl "foo") = false ∧
      Vocabulary.isBuiltinDatatype (Vocabulary.owl "bar") = false ∧
      store.axioms.toList.map (·.statement) =
        [.dataPropertyRange (.named ⟨⟨"a:p"⟩⟩) (.named ⟨Vocabulary.owl "foo"⟩),
          .dataPropertyAssertion (.named ⟨⟨"a:p"⟩⟩) (.named ⟨⟨"a:i"⟩⟩)
            ⟨"x", Vocabulary.owl "bar", none⟩] := by
  decide +kernel

end Document

end OwlFunctional
