import OwlFunctional.Proofs.Acceptance.Document
import OwlFunctional.Proofs.Consistency
import OwlFunctional.Proofs.Lookups
import OwlFunctional.Proofs.Uses

/-! Which entities are listed after a document was read.

An entity is listed because it is declared somewhere in the document, or because a statement refers
to it. It counts as declared in the first case, wherever the declaration stands, and as used only
in the other case.
-/

set_option autoImplicit false

namespace OwlFunctional

def Statement.declared? : Statement → Option Declaration
  | .declaration declared _ _ => some declared
  | .assertion _ => none

def Statement.noted? : Statement → Option (Declaration × List Annotation)
  | .declaration declared annotations _ =>
    if annotations.isEmpty then none else some (declared, annotations)
  | .assertion _ => none

def declaredBy (statements : List Statement) : List Declaration :=
  statements.filterMap Statement.declared?

def usedBy (statements : List Statement) : List Declaration :=
  statements.flatMap Statement.references

namespace Catalogue

/-- The entities that the axioms of a catalogue refer to, and the annotations of axioms and of
declarations. -/
def used (catalogue : Catalogue) : List Declaration :=
  catalogue.axioms.toList.flatMap (fun annotated => (Statement.assertion annotated).references) ++
    catalogue.annotated.toList.flatMap fun entry => entry.2.flatMap Annotation.references

/-! ## What one statement does -/

theorem origin?_list (catalogue : Catalogue) (declared : Declaration) (origin : Origin)
    (declaration : Declaration) :
    (catalogue.list declared.kind ⟨declared.iri, origin⟩).origin? declaration.kind declaration.iri =
      if declaration = declared then some origin
      else catalogue.origin? declaration.kind declaration.iri := by
  split
  · next same => rw [same, origin?_list_self]
  · next different =>
    refine origin?_list_of_ne catalogue ?_
    rw [← not_and_or]
    rintro ⟨kinds, names⟩
    rcases declaration with ⟨kind, iri⟩
    rcases declared with ⟨other, name⟩
    exact different (by rw [show other = kind from kinds, show name = iri from names])

theorem lookup_explicit (kind : EntityKind) (iri : Iri) (catalogue : Catalogue)
    (declaration : Declaration) :
    (catalogue.lookup kind iri).2.origin? declaration.kind declaration.iri = some .explicit ↔
      catalogue.origin? declaration.kind declaration.iri = some .explicit := by
  unfold lookup
  split
  · rfl
  · rfl
  · next absent _ =>
    rw [origin?_list catalogue ⟨kind, iri⟩]
    split
    · next same => simp [same, absent]
    · rfl

theorem add_eq (annotated : AnnotatedAxiom) (catalogue : Catalogue) :
    catalogue.add annotated = { catalogue with
      traits := (catalogue.note annotated.statement).traits
      axioms := catalogue.axioms.push annotated } := by
  unfold add
  rw [note_eq]

theorem write_origin? {catalogue after : Catalogue} {statement : Statement}
    (wrote : catalogue.write statement = (true, after)) (declaration : Declaration) :
    after.origin? declaration.kind declaration.iri =
      if declaration ∈ statement.declared? then some .explicit
      else catalogue.origin? declaration.kind declaration.iri := by
  cases statement with
  | declaration declared annotations position =>
    have listed := origin?_list catalogue declared .explicit declaration
    simp only [write, declare] at wrote
    simp only [Statement.declared?, Option.mem_def, Option.some.injEq, eq_comm (a := declared)]
    split at wrote
    · simp at wrote
    · obtain rfl := (Prod.mk.inj wrote).2
      split <;> exact listed
  | assertion annotated =>
    obtain rfl := (Prod.mk.inj wrote).2
    rw [add_eq]
    rfl

theorem write_annotated {catalogue after : Catalogue} {statement : Statement}
    (wrote : catalogue.write statement = (true, after)) :
    after.annotated.toList = catalogue.annotated.toList ++ statement.noted?.toList := by
  cases statement with
  | declaration declared annotations position =>
    simp only [write, declare] at wrote
    simp only [Statement.noted?]
    split at wrote
    · simp at wrote
    · obtain rfl := (Prod.mk.inj wrote).2
      split <;> simp [list]
  | assertion annotated =>
    obtain rfl := (Prod.mk.inj wrote).2
    rw [add_eq]
    simp [Statement.noted?]

end Catalogue

section

variable {checks : Checks} {scope : Scope} {session after : Session Catalogue}
  {input : List Lexeme}

theorem Reads.explicit_iff {α : Type} {reading : Reading α} {value : α}
    (read : Reads checks reading session value after) (declaration : Declaration) :
    after.store.origin? declaration.kind declaration.iri = some .explicit ↔
      session.store.origin? declaration.kind declaration.iri = some .explicit := by
  refine read.relates (fun first second =>
    second.store.origin? declaration.kind declaration.iri = some .explicit ↔
      first.store.origin? declaration.kind declaration.iri = some .explicit)
    (fun _ => .rfl) ?_ ?_
  · intro first second third before after
    exact after.trans before
  intro query state
  cases query with
  | find kind iri =>
    have kept := state.store.lookup_explicit kind iri declaration
    have same : (Store.find kind iri state.store).2 = (state.store.lookup kind iri).2 := rfl
    rw [← same] at kept
    simp only [Session.answer]
    split
    · next found => rwa [found] at kept
    · next found => rwa [found] at kept
  | _ => exact .rfl

/-- A statement lists what it refers to, and nothing else. That there is nothing else is seen from
a second run, in which only this can be found. -/
theorem Reads.statement_lists {statement : Statement}
    (read : Reads checks (Grammar.statement? scope) session (some statement) after)
    (here : session.At input) (enough : session.stream.ahead.length < scope.limit)
    (declaration : Declaration) : after.store.Lists declaration ↔
      session.store.Lists declaration ∨ declaration ∈ statement.references := by
  obtain ⟨spelled, held⟩ := Recognition.statement?_spelled read here
  constructor
  · intro listed
    -- The second run starts from the same catalogue with the references added to it. It refuses
    -- all else, and still reads the statement.
    obtain ⟨found, -, final, again, -⟩ := Acceptance.readsUpTo_statement? spelled
      (supplied_at here _) (here.size_lt enough) fun reference member => ⟨(held reference member).1,
        .inr ((session.store.lists_supplied _ reference).mpr (.inr member))⟩
    exact read.lists_of_again again listed
  · rintro (before | member)
    · exact read.grows.lists declaration before
    · exact (held declaration member).2

theorem Reads.closing_store
    (read : Reads checks (Grammar.statement? scope) session none after) :
    after.store = session.store := by
  obtain ⟨next, between, scan, read⟩ := bind_iff.mp read
  obtain ⟨-, rfl⟩ := token_iff.mp scan
  split at read
  · obtain ⟨-, rfl⟩ := pure_iff.mp read
    rfl
  · obtain ⟨_, back, -, read⟩ := bind_iff.mp read
    split at read
    · obtain ⟨statement, -, same⟩ := map_iff.mp read
      simp at same
    · obtain ⟨statement, -, same⟩ := map_iff.mp read
      simp at same

/-- A reading that looks nothing up leaves the store as it is. -/
theorem Reads.store_of_looksUp {α : Type} {reading : Reading α} {value : α}
    (read : Reads checks reading session value after)
    (none : LooksUp (fun _ => False) reading) : after.store = session.store := by
  have kept : (reading.run (Session.reader checks) session).2.store = session.store := by
    refine none.run_relates (fun (first second : Session Catalogue) => second.store = first.store)
      (fun _ => rfl) (fun first second => second.trans first) ?_ session
    intro query state allowed
    cases query with
    | find kind iri => exact absurd allowed id
    | _ => rfl
  rwa [read] at kept

end

namespace Catalogue

/-! ## What all statements do -/

/-- What a catalogue tells of the statements that filled it. -/
structure Tallies (catalogue : Catalogue) (statements : List Statement) : Prop where
  explicit : ∀ declaration, catalogue.origin? declaration.kind declaration.iri = some .explicit ↔
    declaration ∈ declaredBy statements
  lists : ∀ declaration, catalogue.Lists declaration ↔
    declaration ∈ declaredBy statements ∨ declaration ∈ usedBy statements
  annotated : catalogue.annotated.toList = statements.filterMap Statement.noted?
  /-- Under the explicit policy nothing is used that is not declared. -/
  closed : catalogue.policy = .explicit →
    ∀ declaration ∈ usedBy statements, declaration ∈ declaredBy statements

theorem tallies_empty (policy : Policy) : (empty policy).Tallies [] where
  explicit declaration := by
    cases declaration.kind <;> simp [empty, origin?, Entry.origin?, declaredBy, ByKind.fill, ByKind.get]
  lists declaration := by
    unfold Lists
    cases declaration.kind <;>
      simp [empty, origin?, Entry.origin?, declaredBy, usedBy, ByKind.fill, ByKind.get]
  annotated := rfl
  closed _ declaration member := by simp [usedBy] at member

theorem mem_declaredBy_concat {statements : List Statement} {statement : Statement}
    {declaration : Declaration} : declaration ∈ declaredBy (statements ++ [statement]) ↔
      declaration ∈ declaredBy statements ∨ declaration ∈ statement.declared? := by
  simp [declaredBy]

theorem mem_usedBy_concat {statements : List Statement} {statement : Statement}
    {declaration : Declaration} : declaration ∈ usedBy (statements ++ [statement]) ↔
      declaration ∈ usedBy statements ∨ declaration ∈ statement.references := by
  simp [usedBy]

theorem Tallies.declared_of_lists {catalogue : Catalogue} {statements : List Statement}
    (tallies : catalogue.Tallies statements) (explicit : catalogue.policy = .explicit)
    {declaration : Declaration} (listed : catalogue.Lists declaration) :
    declaration ∈ declaredBy statements := by
  rcases (tallies.lists declaration).mp listed with declared | used
  · exact declared
  · exact tallies.closed explicit declaration used

end Catalogue

section

variable {checks : Checks} {scope : Scope} {session read written : Session Catalogue}
  {input : List Lexeme} {statements : List Statement} {statement : Statement}

theorem Reads.statement_declared
    (first : Reads checks (Grammar.statement? scope) session (some statement) read)
    (here : session.At input) (tallies : session.store.Tallies statements)
    (explicit : session.store.policy = .explicit) :
    ∀ reference ∈ statement.references, reference ∈ declaredBy statements := by
  intro reference member
  obtain ⟨-, held⟩ := Recognition.statement?_spelled first here
  have listed := (held reference member).2
  rw [first.grows.fixed explicit] at listed
  exact tallies.declared_of_lists explicit listed

theorem Reads.written_policy
    (first : Reads checks (Grammar.statement? scope) session (some statement) read)
    (wrote : (Grammar.write statement).run (Session.writer checks) read = (.ok (), written)) :
    written.store.policy = session.store.policy := by
  have kept := read.store.write_policy statement
  rw [(wrote_iff.mp wrote).1] at kept
  exact kept.trans first.grows.policy

theorem Reads.written_at {rest : List Lexeme}
    (first : Reads checks (Grammar.statement? scope) session (some statement) read)
    (wrote : (Grammar.write statement).run (Session.writer checks) read = (.ok (), written))
    (here : session.At input) (ended : read.stream.ahead = rest) :
    written.At rest ∧ written.stream.ahead.length < session.stream.ahead.length := by
  have readAt := first.atAhead here ended
  have shorter := first.statement_enclosed.2
  rw [← write_unmoved wrote] at shorter
  exact ⟨⟨write_unmoved wrote ▸ readAt.alike, write_unmoved wrote ▸ readAt.noEof⟩, shorter⟩

theorem Catalogue.Tallies.step (tallies : session.store.Tallies statements)
    (first : Reads checks (Grammar.statement? scope) session (some statement) read)
    (wrote : (Grammar.write statement).run (Session.writer checks) read = (.ok (), written))
    (here : session.At input) (enough : session.stream.ahead.length < scope.limit) :
    written.store.Tallies (statements ++ [statement]) := by
  obtain ⟨taken, -⟩ := wrote_iff.mp wrote
  have origins := Catalogue.write_origin? taken
  refine ⟨fun declaration => ?_, fun declaration => ?_, ?_, ?_⟩
  · rw [origins, Catalogue.mem_declaredBy_concat, ← tallies.explicit, ← first.explicit_iff]
    split
    · next declares => simp [declares]
    · next other => simp [other]
  · rw [Catalogue.Lists, origins, Catalogue.mem_declaredBy_concat, Catalogue.mem_usedBy_concat]
    have before := first.statement_lists here enough declaration
    rw [tallies.lists] at before
    split
    · next declares => simp [declares]
    · next other =>
      rw [← Catalogue.Lists, before]
      simp [other, or_assoc]
  · rw [Catalogue.write_annotated taken, first.grows.annotated, tallies.annotated]
    cases noted : statement.noted? <;> simp [noted]
  · intro explicit reference member
    rw [first.written_policy wrote] at explicit
    refine Catalogue.mem_declaredBy_concat.mpr (.inl ?_)
    rcases Catalogue.mem_usedBy_concat.mp member with before | member
    · exact tallies.closed explicit reference before
    · exact first.statement_declared here tallies explicit reference member

theorem Accepted.policy {accepted : List (Statement × Session Catalogue)}
    (chain : Accepted checks scope session accepted written) :
    written.store.policy = session.store.policy := by
  induction chain with
  | none => rfl
  | more first wrote _ ih => exact ih.trans (first.written_policy wrote)

/-- Accepted statements, one after the other: the catalogue tells of all of them, and under the
explicit policy each of them refers to what was declared before it. -/
theorem Accepted.tallies {accepted : List (Statement × Session Catalogue)}
    (chain : Accepted checks scope session accepted written) (here : session.At input)
    (enough : session.stream.ahead.length < scope.limit)
    (tallies : session.store.Tallies statements) :
    written.store.Tallies (statements ++ accepted.map (·.1)) ∧
      (session.store.policy = .explicit → ∀ before statement after,
        accepted.map (·.1) = before ++ statement :: after →
        ∀ reference ∈ statement.references, reference ∈ declaredBy (statements ++ before)) := by
  -- The statements before the chain grow by one in each step, and with them what may be used.
  induction chain generalizing input statements with
  | none => simpa using tallies
  | @more statement others session read written last first wrote chain ih =>
    have stepped := tallies.step first wrote here enough
    obtain ⟨writtenAt, shorter⟩ := first.written_at wrote here rfl
    obtain ⟨all, later⟩ := ih writtenAt (Nat.lt_trans shorter enough) stepped
    refine ⟨by simpa using all, fun explicit before statement after same => ?_⟩
    cases before with
    | nil =>
      obtain ⟨rfl, -⟩ := List.cons.inj same
      simpa using first.statement_declared here tallies explicit
    | cons earlier before =>
      obtain ⟨rfl, rest⟩ := List.cons.inj same
      have policy := (first.written_policy wrote).trans explicit
      simpa using later policy before statement after rest

end

/-! ## Whole documents -/

theorem Entry.mem_iff_origin? {entries : List Entry} (ordered : Ordered Entry.key entries)
    (iri : Iri) (origin : Origin) :
    ⟨iri, origin⟩ ∈ entries ↔ origin? entries iri = some origin := by
  induction entries with
  | nil => simp [origin?]
  | cons first rest ih =>
    obtain ⟨above, others⟩ := List.pairwise_cons.mp ordered
    rw [origin?_cons, List.mem_cons, ih others]
    split
    · next same =>
      -- Keys grow, so the name of the first entry does not come again.
      have absent : origin? rest iri ≠ some origin := by
        intro found
        have less := above _ ((ih others).mpr found)
        rw [key, key, same] at less
        exact String.lt_irrefl _ less
      rcases first with ⟨name, kept⟩
      obtain rfl : name = iri := same
      simp [absent, eq_comm]
    · next different =>
      refine or_iff_right fun same => different ?_
      rw [← same]

theorem Statement.mem_references_iff {statement : Statement} {declaration : Declaration} :
    declaration ∈ statement.references ↔
      (∃ annotated, statement.asserted? = some annotated ∧
        declaration ∈ (assertion annotated).references) ∨
      ∃ entry, statement.noted? = some entry ∧
        declaration ∈ entry.2.flatMap Annotation.references := by
  cases statement with
  | declaration declared annotations position =>
    cases annotations <;> simp [asserted?, noted?, references]
  | assertion annotated => simp [asserted?, noted?]

namespace Catalogue

theorem mem_entries_iff (catalogue : Catalogue) (kind : EntityKind) (iri : Iri) (origin : Origin) :
    ⟨iri, origin⟩ ∈ catalogue.entries.get kind ↔ catalogue.origin? kind iri = some origin :=
  Entry.mem_iff_origin? (catalogue.ordered kind) iri origin

theorem mem_declarations_iff (catalogue : Catalogue) (kind : EntityKind) (iri : Iri) :
    ⟨kind, iri⟩ ∈ catalogue.declarations kind ↔ catalogue.Lists ⟨kind, iri⟩ := by
  rw [lists_iff, declarations, List.mem_map]
  simp

theorem origin?_implicit_iff (catalogue : Catalogue) (kind : EntityKind) (iri : Iri) :
    catalogue.origin? kind iri = some .implicit ↔
      catalogue.Lists ⟨kind, iri⟩ ∧ catalogue.origin? kind iri ≠ some .explicit := by
  unfold Lists
  rcases catalogue.origin? kind iri with _ | _ | _ <;> simp

end Catalogue

theorem Catalogue.mem_used_iff {catalogue : Catalogue} {statements : List Statement}
    (axioms : catalogue.axioms.toList = statements.filterMap Statement.asserted?)
    (annotated : catalogue.annotated.toList = statements.filterMap Statement.noted?)
    (declaration : Declaration) :
    declaration ∈ catalogue.used ↔ declaration ∈ usedBy statements := by
  rw [used, axioms, annotated, usedBy, List.mem_append, List.mem_flatMap, List.mem_flatMap,
    List.mem_flatMap]
  constructor
  · rintro (⟨annotated, member, refers⟩ | ⟨entry, member, refers⟩)
    · obtain ⟨statement, member, same⟩ := List.mem_filterMap.mp member
      exact ⟨statement, member, Statement.mem_references_iff.mpr (.inl ⟨annotated, same, refers⟩)⟩
    · obtain ⟨statement, member, same⟩ := List.mem_filterMap.mp member
      exact ⟨statement, member, Statement.mem_references_iff.mpr (.inr ⟨entry, same, refers⟩)⟩
  · rintro ⟨statement, member, refers⟩
    rcases Statement.mem_references_iff.mp refers with ⟨annotated, same, refers⟩ |
      ⟨entry, same, refers⟩
    · exact .inl ⟨annotated, List.mem_filterMap.mpr ⟨statement, member, same⟩, refers⟩
    · exact .inr ⟨entry, List.mem_filterMap.mpr ⟨statement, member, same⟩, refers⟩

theorem Catalogue.Tallies.entries {catalogue : Catalogue} {statements : List Statement}
    (tallies : catalogue.Tallies statements)
    (axioms : catalogue.axioms.toList = statements.filterMap Statement.asserted?)
    (kind : EntityKind) (iri : Iri) :
    (⟨iri, .explicit⟩ ∈ catalogue.entries.get kind ↔ ⟨kind, iri⟩ ∈ declaredBy statements) ∧
    (⟨kind, iri⟩ ∈ catalogue.declarations kind ↔
      ⟨kind, iri⟩ ∈ declaredBy statements ∨ ⟨kind, iri⟩ ∈ catalogue.used) ∧
    (⟨iri, .implicit⟩ ∈ catalogue.entries.get kind ↔
      ⟨kind, iri⟩ ∈ catalogue.used ∧ ⟨kind, iri⟩ ∉ declaredBy statements) := by
  have explicit : catalogue.origin? kind iri = some .explicit ↔ _ := tallies.explicit ⟨kind, iri⟩
  have lists := tallies.lists ⟨kind, iri⟩
  rw [← mem_used_iff axioms tallies.annotated] at lists
  refine ⟨?_, ?_, ?_⟩
  · rw [mem_entries_iff, explicit]
  · rw [mem_declarations_iff, lists]
  · rw [mem_entries_iff, origin?_implicit_iff, lists, ne_eq, explicit, and_congr_left_iff]
    exact fun free => or_iff_right free

namespace Document

theorem Completes.tallies {settings : Settings} {start after : Session Catalogue}
    {ontology : Ontology} {statements : List Statement}
    (completes : Completes settings start ontology statements after)
    (noEof : start.stream.NoEof) (blank : start.store.Tallies []) :
    after.store.policy = start.store.policy ∧ after.store.Tallies statements ∧
      (start.store.policy = .explicit → ∀ before statement others,
        statements = before ++ statement :: others →
        ∀ reference ∈ statement.references, reference ∈ declaredBy before) := by
  obtain ⟨read, chain, close, finish, rfl⟩ := completes
  obtain ⟨bindings, bound, binds, heads⟩ :=
    (preamble_iff (Nat.lt_succ_self start.stream.ahead.length)).mp read
  have untouched := read.store_of_looksUp (.preamble ..)
  have startAt : start.At start.stream.ahead := ⟨rfl, noEof⟩
  rw [← untouched] at blank ⊢
  obtain ⟨all, earlier⟩ := chain.tallies (read.atItself startAt) (Nat.lt_succ_self _) blank
  rw [finish.store_of_looksUp .ending, close.closing_store]
  exact ⟨chain.policy, by simpa using all, by simpa using earlier⟩

theorem opened_store (settings : Settings) (source : String) (input : Input) :
    (prepare settings (opened settings source input)).store = .empty settings.policy :=
  prepare_store settings _

/-- A catalogue lists what its document declares and what it refers to. The entities that a
document declares are those with an explicit origin, and those that its axioms and annotations refer
to, and that it declares nowhere, are those with an implicit one. Under the explicit policy there
are none of these, and each statement refers to what was declared before it. -/
theorem read_lists_exactly {settings : Settings} {source : String} {input : Input}
    {ontology : Ontology} (accepted : (read settings source input).result = .ok ontology) :
    let store := (read settings source input).session.store
    ∃ bindings statements,
      Spelling.Document settings.prefixes bindings ontology statements
        (Lexeme.lexemesOf input.chars) ∧
      store.axioms.toList = statements.filterMap Statement.asserted? ∧
      store.annotated.toList = statements.filterMap Statement.noted? ∧
      (∀ kind iri,
        (⟨iri, .explicit⟩ ∈ store.entries.get kind ↔ ⟨kind, iri⟩ ∈ declaredBy statements) ∧
        (⟨kind, iri⟩ ∈ store.declarations kind ↔
          ⟨kind, iri⟩ ∈ declaredBy statements ∨ ⟨kind, iri⟩ ∈ store.used) ∧
        (⟨iri, .implicit⟩ ∈ store.entries.get kind ↔
          ⟨kind, iri⟩ ∈ store.used ∧ ⟨kind, iri⟩ ∉ declaredBy statements)) ∧
      (settings.policy = .explicit →
        (∀ kind iri, ⟨iri, .implicit⟩ ∉ store.entries.get kind) ∧
        ∀ before statement others, statements = before ++ statement :: others →
          ∀ reference ∈ statement.references, reference ∈ declaredBy before) := by
  intro store
  obtain ⟨statements, after, completes, stored⟩ := completes_of_ok accepted
  change store = after.store at stored
  obtain ⟨ahead, noEof, -⟩ := opened_begins settings source input
  have empty := opened_store settings source input
  obtain ⟨⟨bindings, spelled⟩, -⟩ := completes.spelled noEof
  obtain ⟨policy, tallies, earlier⟩ :=
    completes.tallies noEof (empty ▸ Catalogue.tallies_empty settings.policy)
  have axioms := completes.axioms
  rw [empty] at axioms policy earlier
  rw [← stored] at tallies axioms policy
  have used := Catalogue.mem_used_iff axioms tallies.annotated
  have entries := tallies.entries axioms
  refine ⟨bindings, statements, ahead ▸ spelled, axioms, tallies.annotated, entries, ?_⟩
  intro explicit
  refine ⟨fun kind iri member => ?_, earlier explicit⟩
  obtain ⟨refers, free⟩ := (entries kind iri).2.2.mp member
  exact free (tallies.closed (policy.trans explicit) _ ((used _).mp refers))

def usedThenDeclared : Input where
  bytes := ("Ontology(<o:o>SubClassOf(<a:A> ObjectSomeValuesFrom(<a:p> <a:B>))" ++
    "Declaration(Class(<a:A>)))").toList.map fun letter => .ofNat letter.toNat

theorem read_lists_used_then_declared :
    let settings : Settings := { policy := .implicit }
    let ontology : Ontology := ⟨⟨"o:o"⟩, none, .empty⟩
    let store := (read settings "" usedThenDeclared).session.store
    (read settings "" usedThenDeclared).result = .ok ontology ∧
      store.entries.get .owlClass = [⟨⟨"a:A"⟩, .explicit⟩, ⟨⟨"a:B"⟩, .implicit⟩] ∧
      store.entries.get .objectProperty = [⟨⟨"a:p"⟩, .implicit⟩] ∧
      ∃ bindings statements,
        Spelling.Document settings.prefixes bindings ontology statements
          (Lexeme.lexemesOf usedThenDeclared.chars) ∧
        ⟨.owlClass, ⟨"a:A"⟩⟩ ∈ declaredBy statements ∧
        ⟨.owlClass, ⟨"a:B"⟩⟩ ∈ store.used ∧ ⟨.owlClass, ⟨"a:B"⟩⟩ ∉ declaredBy statements := by
  intro settings ontology store
  have accepted : (read settings "" usedThenDeclared).result = .ok ontology := by decide +kernel
  have classes : store.entries.get .owlClass = [⟨⟨"a:A"⟩, .explicit⟩, ⟨⟨"a:B"⟩, .implicit⟩] := by
    decide +kernel
  have properties : store.entries.get .objectProperty = [⟨⟨"a:p"⟩, .implicit⟩] := by
    decide +kernel
  obtain ⟨bindings, statements, spelled, -, -, entries, -⟩ := read_lists_exactly accepted
  have declared := (entries .owlClass ⟨"a:A"⟩).1.mp (classes ▸ List.mem_cons_self)
  have used := (entries .owlClass ⟨"a:B"⟩).2.2.mp (classes ▸ .tail _ (.head _))
  exact ⟨accepted, classes, properties, bindings, statements, spelled, declared, used⟩

end Document

end OwlFunctional
