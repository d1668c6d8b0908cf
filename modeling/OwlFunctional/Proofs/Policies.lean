import OwlFunctional.Proofs.Entities
import OwlFunctional.Proofs.Uniformity

/-! The two policies side by side.

A document is read twice, once under each policy. As long as the use of an entity declares nothing,
both runs get the same answers and leave the same behind. The first use that does declare something
is where the explicit policy refuses the document.
-/

set_option autoImplicit false

namespace OwlFunctional

/-! ## Programs in lockstep -/

/-- Either the second run never strays and both runs end alike, or it strays and the first run
fails. -/
theorem Program.run_lockstep {R S T α : Type} [Signature R] {handler : Handler R S}
    {other : Handler R T} {related : S → T → Prop} {strays : R → T → Prop}
    (step : ∀ request state twin, related state twin →
      (¬ strays request twin ∧
        Agrees Eq Eq related (handler.answer request state) (other.answer request twin)) ∨
      (strays request twin ∧ ∃ reason after, handler.answer request state = (.error reason, after)))
    (program : Program R α) {state : S} {twin : T} (start : related state twin) :
    ((∀ request ∈ program.requests other twin, ¬ strays request.1 request.2) ∧
      Agrees Eq Eq related (program.run handler state) (program.run other twin)) ∨
    ((∃ request ∈ program.requests other twin, strays request.1 request.2) ∧
      ∃ error after, program.run handler state = (.error error, after)) := by
  induction program generalizing state twin with
  | done value => exact .inl ⟨by simp [requests], .ok rfl start⟩
  | fail error => exact .inl ⟨by simp [requests], .error rfl start⟩
  | ask request refused next ih =>
    simp only [run, requests, List.mem_cons, forall_eq_or_imp, exists_eq_or_imp]
    rcases step request state twin start with ⟨keeps, answers⟩ | ⟨strayed, reason, after, failed⟩
    · generalize handler.answer request state = left at answers
      generalize other.answer request twin = right at answers
      cases answers with
      | @ok reply _ _ _ same kept =>
        subst same
        rcases ih reply kept with ⟨none, runs⟩ | ⟨some, failed⟩
        · exact .inl ⟨⟨keeps, none⟩, runs⟩
        · exact .inr ⟨.inr some, failed⟩
      | error same kept =>
        subst same
        exact .inl ⟨⟨keeps, by simp⟩, .error rfl kept⟩
    · rw [failed]
      exact .inr ⟨.inl strayed, _, _, rfl⟩

/-! ## Catalogues -/

namespace Catalogue

def under (catalogue : Catalogue) (policy : Policy) : Catalogue :=
  { catalogue with policy := policy }

def AllDeclared (catalogue : Catalogue) : Prop :=
  ∀ kind, ∀ entry ∈ catalogue.entries.get kind, entry.origin = .explicit

theorem allDeclared_empty (policy : Policy) : (empty policy).AllDeclared := by
  intro kind entry member
  cases kind <;> simp [empty, ByKind.fill, ByKind.get] at member

theorem AllDeclared.list {catalogue : Catalogue} (declared : catalogue.AllDeclared)
    (kind : EntityKind) (iri : Iri) : (catalogue.list kind ⟨iri, .explicit⟩).AllDeclared := by
  intro other entry member
  unfold Catalogue.list at member
  by_cases same : other = kind
  · subst same
    rw [ByKind.get_set_self] at member
    rcases mem_placeBy member with rfl | before
    · rfl
    · exact declared other entry before
  · rw [ByKind.get_set_of_ne _ _ same] at member
    exact declared other entry member

theorem AllDeclared.declare {catalogue : Catalogue} (declared : catalogue.AllDeclared)
    (declaration : Declaration) (annotations : List Annotation) :
    (catalogue.declare declaration annotations).2.AllDeclared := by
  have listed := declared.list declaration.kind declaration.iri
  unfold Catalogue.declare
  split
  · exact declared
  · dsimp only
    split <;> exact listed

theorem declare_under (catalogue : Catalogue) (policy : Policy) (declaration : Declaration)
    (annotations : List Annotation) :
    (catalogue.under policy).declare declaration annotations =
      ((catalogue.declare declaration annotations).1,
        (catalogue.declare declaration annotations).2.under policy) := by
  have same : (catalogue.under policy).origin? declaration.kind declaration.iri =
    catalogue.origin? declaration.kind declaration.iri := rfl
  unfold declare
  rw [same]
  by_cases twice : catalogue.origin? declaration.kind declaration.iri = some .explicit
  · simp only [if_pos twice]
  · simp only [if_neg twice]
    by_cases bare : annotations.isEmpty
    · simp only [if_pos bare]
      rfl
    · simp only [if_neg bare]
      rfl

theorem add_under (catalogue : Catalogue) (policy : Policy) (annotated : AnnotatedAxiom) :
    (catalogue.under policy).add annotated = (catalogue.add annotated).under policy := by
  rw [add_eq, add_eq, note_traits, note_traits]
  rfl

theorem find_listed {catalogue : Catalogue} {kind : EntityKind} {iri : Iri} {origin : Origin}
    (listed : catalogue.origin? kind iri = some origin) :
    Store.find kind iri catalogue = (some ⟨iri⟩, catalogue) := by
  change ((catalogue.lookup kind iri).1.bind _, (catalogue.lookup kind iri).2) = _
  simp [lookup, listed, Declaration.entity?]

theorem find_refused {catalogue : Catalogue} {kind : EntityKind} {iri : Iri}
    (absent : catalogue.origin? kind iri = none) (explicit : catalogue.policy = .explicit) :
    Store.find kind iri catalogue = (none, catalogue) := by
  change ((catalogue.lookup kind iri).1.bind _, (catalogue.lookup kind iri).2) = _
  simp [lookup, absent, explicit]

theorem find_used {catalogue : Catalogue} {kind : EntityKind} {iri : Iri}
    (absent : catalogue.origin? kind iri = none) (implicit : catalogue.policy = .implicit) :
    Store.find kind iri catalogue = (some ⟨iri⟩, catalogue.list kind ⟨iri, .implicit⟩) := by
  change ((catalogue.lookup kind iri).1.bind _, (catalogue.lookup kind iri).2) = _
  simp [lookup, absent, implicit, Declaration.entity?]

theorem mem_list (catalogue : Catalogue) (kind : EntityKind) (entry : Entry) :
    entry ∈ (catalogue.list kind entry).entries.get kind := by
  unfold list
  rw [ByKind.get_set_self]
  exact mem_placeBy_self entry _

end Catalogue

/-! ## Sessions -/

/-- The answer to the command lists an entity as used that was not listed so before. -/
def Command.Inserts (checks : Checks) (command : Command) (session : Session Catalogue) : Prop :=
  ∃ kind iri, ⟨iri, .implicit⟩ ∉ session.store.entries.get kind ∧
    ⟨iri, .implicit⟩ ∈
      ((Session.writer checks).answer command session).2.store.entries.get kind

/-- Two sessions at the same place, whose catalogues differ in their policies only. -/
structure Twins (strict free : Session Catalogue) : Prop where
  stream : free.stream = strict.stream
  store : free.store = strict.store.under .implicit
  policy : strict.store.policy = .explicit
  declared : strict.store.AllDeclared

variable {checks : Checks} {strict free : Session Catalogue}

theorem Command.not_inserts_of_agrees {command : Command}
    (answers : Agrees Eq Eq Twins ((Session.writer checks).answer command strict)
      ((Session.writer checks).answer command free)) : ¬ command.Inserts checks free := by
  rintro ⟨kind, iri, -, inserted⟩
  have twins : ∃ state, Twins state ((Session.writer checks).answer command free).2 := by
    generalize (Session.writer checks).answer command strict = left at answers
    generalize (Session.writer checks).answer command free = right at answers
    cases answers with
    | ok _ kept => exact ⟨_, kept⟩
    | error _ kept => exact ⟨_, kept⟩
  -- The catalogue that is left has the entries of its twin, which were all declared.
  obtain ⟨state, twins⟩ := twins
  rw [twins.store] at inserted
  have declared := twins.declared kind _ inserted
  simp at declared

section

variable {stream : Stream} {store : Catalogue}

/-- No query but `find` looks at the policy, and the stream moves alike on both sides. -/
theorem twins_under (policy : store.policy = .explicit) (declared : store.AllDeclared)
    (moved : Stream) : Twins ⟨moved, store⟩ ⟨moved, store.under .implicit⟩ :=
  ⟨rfl, rfl, policy, declared⟩

/-- The one place where the policies differ: what is not listed is refused on one side and inserted
on the other. -/
theorem twins_find (policy : store.policy = .explicit) (declared : store.AllDeclared)
    (kind : EntityKind) (iri : Iri) :
    Agrees Eq Eq Twins ((Session.writer checks).answer (.query (.find kind iri)) ⟨stream, store⟩)
      ((Session.writer checks).answer (.query (.find kind iri))
        ⟨stream, store.under .implicit⟩) ∨
    (Command.Inserts checks (.query (.find kind iri)) ⟨stream, store.under .implicit⟩ ∧
      ∃ reason after, (Session.writer checks).answer (.query (.find kind iri)) ⟨stream, store⟩ =
        (.error reason, after)) := by
  cases listed : store.origin? kind iri with
  | some origin =>
    have first := Catalogue.find_listed listed
    have second : Store.find kind iri (store.under .implicit) =
      (some ⟨iri⟩, store.under .implicit) := Catalogue.find_listed listed
    simp only [Session.writer, Session.answer, first, second]
    exact .inl (.ok rfl (twins_under policy declared stream))
  | none =>
    have first := Catalogue.find_refused listed policy
    have second : Store.find kind iri (store.under .implicit) =
        (some ⟨iri⟩, (store.under .implicit).list kind ⟨iri, .implicit⟩) :=
      Catalogue.find_used listed rfl
    refine .inr ⟨⟨kind, iri, ?_, ?_⟩, (), ⟨stream, store⟩, ?_⟩
    · intro member
      have given := declared kind _ member
      simp at given
    · simp only [Session.writer, Session.answer, second]
      exact Catalogue.mem_list _ kind _
    · simp only [Session.writer, Session.answer, first]

theorem twins_declare (policy : store.policy = .explicit) (declared : store.AllDeclared)
    (declaration : Declaration) (annotations : List Annotation) :
    Agrees Eq Eq Twins
      ((Session.writer checks).answer (.declare declaration annotations) ⟨stream, store⟩)
      ((Session.writer checks).answer (.declare declaration annotations)
        ⟨stream, store.under .implicit⟩) := by
  have kept := declared.declare declaration annotations
  have constant := (store.declare_policy declaration annotations).trans policy
  have both := store.declare_under .implicit declaration annotations
  simp only [Session.writer, Store.declare, both]
  generalize store.declare declaration annotations = result at kept constant
  rcases result with ⟨_ | _, taken⟩
  · exact .error rfl (twins_under constant kept stream)
  · exact .ok rfl (twins_under constant kept stream)

end

theorem Twins.command (twins : Twins strict free) (command : Command) :
    Agrees Eq Eq Twins ((Session.writer checks).answer command strict)
      ((Session.writer checks).answer command free) ∨
    (command.Inserts checks free ∧ ∃ reason after,
      (Session.writer checks).answer command strict = (.error reason, after)) := by
  rcases strict with ⟨stream, store⟩
  rcases free with ⟨other, catalogue⟩
  obtain ⟨same, under, policy, declared⟩ := twins
  obtain rfl : other = stream := same
  obtain rfl : catalogue = store.under .implicit := under
  have unmoved := twins_under policy declared
  cases command with
  | query query =>
    cases query with
    | token | peek | unscan | here | subtag | report => exact .inl (.ok rfl (unmoved _))
    | checkIri text =>
      simp only [Session.writer, Session.answer]
      cases checks.iri text with
      | none => exact .inl (.ok rfl (unmoved _))
      | some error => exact .inl (.error rfl (unmoved _))
    | checkTag tag =>
      simp only [Session.writer, Session.answer]
      cases checks.tag tag with
      | none => exact .inl (.ok rfl (unmoved _))
      | some error => exact .inl (.error rfl (unmoved _))
    | find kind iri => exact twins_find policy declared kind iri
  | declare declaration annotations =>
    exact .inl (twins_declare policy declared declaration annotations)
  | add annotated =>
    refine .inl (.ok rfl ⟨rfl, store.add_under .implicit annotated, ?_, ?_⟩)
    · exact (congrArg Catalogue.policy (store.add_eq annotated)).trans policy
    · change (store.add annotated).AllDeclared
      rw [Catalogue.add_eq]
      exact declared

variable (checks) in
/-- A run under the implicit policy that lists nothing as used is one under the explicit policy, and
any other run fails there. -/
theorem Twins.run {α : Type} (twins : Twins strict free) (writing : Writing α) :
    ((∀ request ∈ writing.requests (Session.writer checks) free,
        ¬ request.1.Inserts checks request.2) ∧
      Agrees Eq Eq Twins (writing.run (Session.writer checks) strict)
        (writing.run (Session.writer checks) free)) ∨
    ((∃ request ∈ writing.requests (Session.writer checks) free,
        request.1.Inserts checks request.2) ∧
      ∃ error after, writing.run (Session.writer checks) strict = (.error error, after)) := by
  refine Program.run_lockstep ?_ writing twins
  intro command state twin related
  rcases related.command command with answers | strayed
  · exact .inl ⟨Command.not_inserts_of_agrees answers, answers⟩
  · exact .inr strayed

/-! ## Documents -/

def Settings.under (settings : Settings) (policy : Policy) : Settings :=
  { settings with policy := policy }

namespace Document

theorem twins_prepare (settings : Settings) (twins : Twins strict free) :
    Twins (prepare settings strict) (prepare settings free) := by
  rw [prepare_eq, prepare_eq]
  exact ⟨by rw [twins.stream], twins.store, twins.policy, twins.declared⟩

theorem perform_lockstep (settings : Settings) (twins : Twins strict free) :
    ((∀ request ∈ requests settings free, ¬ request.1.Inserts settings.checks request.2) ∧
      Agrees Eq Eq Twins (perform settings strict).2 (perform settings free).2) ∨
    ((∃ request ∈ requests settings free, request.1.Inserts settings.checks request.2) ∧
      ∃ error, (perform settings strict).2.1 = .error error) := by
  have prepared := twins_prepare settings twins
  unfold requests perform
  dsimp only
  generalize prepare settings strict = first at prepared
  generalize prepare settings free = second at prepared
  have limits : limit second = limit first := by rw [limit, limit, prepared.stream]
  -- The bounds are counted off the same lexemes, so both sides run the same programs.
  have programs : preamble settings second = preamble settings first := by
    rw [preamble, preamble, limits]
  have heads := prepared.run settings.checks (Writing.ofReading (preamble settings first))
  rw [programs, ← Writing.requests_ofReading]
  rw [Writing.run_ofReading, Writing.run_ofReading] at heads
  rcases heads with ⟨keeps, runs⟩ | ⟨⟨request, member, inserts⟩, error, after, failed⟩
  · generalize (preamble settings first).run (Session.reader settings.checks) first = left at runs
    generalize (preamble settings first).run (Session.reader settings.checks) second = right at runs
    cases runs with
    | error same kept =>
      subst same
      exact .inl ⟨by simpa using keeps, .error rfl kept⟩
    | @ok ontology _ middle twin same kept =>
      subst same
      have equal : limit twin = limit middle := by rw [limit, limit, kept.stream]
      have bodies := kept.run settings.checks (statements ontology middle)
      have body : statements ontology twin = statements ontology middle := by
        rw [statements, statements, equal]
      simp only [body, List.mem_append, or_imp, forall_and]
      rcases bodies with ⟨also, ends⟩ | ⟨⟨request, member, inserts⟩, error, after, failed⟩
      · refine .inl ⟨⟨keeps, also⟩, ?_⟩
        generalize (statements ontology middle).run (Session.writer settings.checks) middle = left
          at ends
        generalize (statements ontology middle).run (Session.writer settings.checks) twin = right
          at ends
        cases ends with
        | ok _ last => exact .ok rfl last
        | error same last => exact .error same last
      · refine .inr ⟨⟨request, .inr member, inserts⟩, error, ?_⟩
        rw [failed]
        rfl
  · refine .inr ⟨⟨request, List.mem_append_left _ member, inserts⟩, error, ?_⟩
    rw [failed]

theorem twins_opened (settings : Settings) (source : String) (input : Input) :
    Twins (opened (settings.under .explicit) source input)
      (opened (settings.under .implicit) source input) :=
  ⟨rfl, rfl, rfl, Catalogue.allDeclared_empty _⟩

theorem conclude_twins {header other : Option Ontology}
    {left right : Except SyntaxError Ontology × Session Catalogue}
    (ends : Agrees Eq Eq Twins left right) :
    (conclude header left.1 left.2).result = (conclude other right.1 right.2).result ∧
      Twins left.2 right.2 := by
  cases ends with
  | ok same kept =>
    subst same
    exact ⟨by simp only [conclude, Stream.takeFault, kept.stream], kept⟩
  | error same kept =>
    subst same
    exact ⟨by simp only [conclude, Stream.takeFault, kept.stream], kept⟩

/-- A document is accepted under the explicit policy exactly if it is accepted under the implicit
one and no use of an entity ever declares it. Both ontologies are then the same, and both catalogues
hold the same, with no entity that is declared by its use. -/
theorem read_explicit_iff_implicit (settings : Settings) (source : String) (input : Input) :
    let strict := read (settings.under .explicit) source input
    let free := read (settings.under .implicit) source input
    ((∃ ontology, strict.result = .ok ontology) ↔
      (∃ ontology, free.result = .ok ontology) ∧
        ∀ request ∈ requests (settings.under .implicit)
          (opened (settings.under .implicit) source input),
          ¬ request.1.Inserts settings.checks request.2) ∧
    ∀ ontology, strict.result = .ok ontology →
      free.result = .ok ontology ∧ free.session.store = strict.session.store.under .implicit ∧
      strict.session.store.AllDeclared ∧ free.session.store.AllDeclared := by
  intro strict free
  have first : strict = _ := readInto_eq_conclude ..
  have second : free = _ := readInto_eq_conclude ..
  rcases perform_lockstep settings (twins_opened settings source input) with
    ⟨keeps, ends⟩ | ⟨⟨request, member, inserts⟩, error, failed⟩
  · obtain ⟨told, twins⟩ := conclude_twins ends
    have same : strict.result = free.result := by
      rw [first, second]
      exact told
    have stores : free.session.store = strict.session.store.under .implicit := by
      rw [first, second]
      exact twins.store
    have declared : strict.session.store.AllDeclared := by
      rw [first]
      exact twins.declared
    -- Nothing was declared by its use, so the two results are one.
    refine ⟨?_, ?_⟩
    · rw [same]
      exact ⟨fun accepted => ⟨accepted, keeps⟩, And.left⟩
    · intro ontology accepted
      refine ⟨same ▸ accepted, stores, declared, ?_⟩
      rw [stores]
      exact declared
  · -- The explicit policy refuses the document at the use that declares something.
    have refused : ∀ ontology, strict.result ≠ .ok ontology := by
      intro ontology accepted
      rw [first] at accepted
      have complete : (perform settings (opened (settings.under .explicit) source input)).2.1 =
        .ok ontology := (conclude_ok_iff.mp accepted).2
      simp [failed] at complete
    refine ⟨?_, ?_⟩
    · constructor
      · rintro ⟨ontology, accepted⟩
        exact absurd accepted (refused ontology)
      · rintro ⟨-, keeps⟩
        exact absurd inserts (keeps request member)
    · intro ontology accepted
      exact absurd accepted (refused ontology)

end Document

end OwlFunctional
