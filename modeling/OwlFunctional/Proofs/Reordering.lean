import OwlFunctional.Proofs.Characteristics
import OwlFunctional.Proofs.Layout
import OwlFunctional.Proofs.Partition

/-! The order of the statements of a document.

A statement leaves its mark in the catalogue, and the next ones are read from there. All that they
can see of it is which entities are listed. So the statements can change places where entities need
not be declared before their use, and otherwise as long as they still are.
-/

set_option autoImplicit false

namespace OwlFunctional

open Acceptance (SameContent)
open Spelling (States Closes)

/-! ## Statements with the same content -/

section

variable {α : Type} {statements others : List Statement}

theorem filterMap_eq_of_sameContent {part : Statement → Option α}
    (respects : ∀ {first second}, SameContent first second → part first = part second)
    (alike : List.Forall₂ SameContent statements others) :
    statements.filterMap part = others.filterMap part := by
  induction alike with
  | nil => rfl
  | cons same _ ih => rw [List.filterMap_cons, List.filterMap_cons, respects same, ih]

theorem usedBy_eq_of_sameContent (alike : List.Forall₂ SameContent statements others) :
    usedBy statements = usedBy others := by
  induction alike with
  | nil => rfl
  | cons same _ ih =>
    rw [usedBy, List.flatMap_cons, ← usedBy, ih, same.references_eq, usedBy, usedBy,
      List.flatMap_cons]

theorem Catalogue.Tallies.congr {catalogue : Catalogue} (tallies : catalogue.Tallies others)
    (alike : List.Forall₂ SameContent statements others) : catalogue.Tallies statements := by
  have declared : declaredBy statements = declaredBy others :=
    filterMap_eq_of_sameContent SameContent.declared?_eq alike
  have noted := filterMap_eq_of_sameContent SameContent.noted?_eq alike
  have used := usedBy_eq_of_sameContent alike
  obtain ⟨explicit, lists, annotated, closed⟩ := tallies
  refine ⟨?_, ?_, ?_, ?_⟩
  · rwa [declared]
  · rwa [declared, used]
  · rw [noted, annotated]
  · rwa [declared, used]

end

/-! ## What is left of statements in another order -/

theorem Ordered.eq_of_mem_iff {α : Type} {key : α → String} {first second : List α}
    (ordered : Ordered key first) (again : Ordered key second)
    (same : ∀ item, item ∈ first ↔ item ∈ second) : first = second := by
  have distinct {items : List α} (ordered : Ordered key items) : items.Nodup := by
    refine List.Pairwise.imp (fun less same => ?_) ordered
    exact String.ne_of_lt less (congrArg key same)
  have perm : first.Perm second :=
    (List.perm_ext_iff_of_nodup (distinct ordered) (distinct again)).mpr same
  refine perm.eq_of_pairwise ?_ ordered again
  intro one two _ _ less greater
  exact absurd greater (String.lt_asymm less)

theorem ByKind.ext_get {α : Type} {first second : ByKind α}
    (same : ∀ kind, first.get kind = second.get kind) : first = second := by
  obtain ⟨_, _, _, _, _, _⟩ := first
  obtain ⟨_, _, _, _, _, _⟩ := second
  have equal := And.intro (same .annotationProperty) (And.intro (same .owlClass) (And.intro
    (same .dataProperty) (And.intro (same .datatype) (And.intro (same .namedIndividual)
      (same .objectProperty)))))
  simpa [get] using equal

namespace Catalogue

/-- All that a catalogue holds comes from the statements, in their order. -/
structure Records (catalogue : Catalogue) (statements : List Statement) : Prop where
  tallies : catalogue.Tallies statements
  consistent : catalogue.Consistent
  axioms : catalogue.axioms.toList = statements.filterMap Statement.asserted?

variable {first second : Catalogue} {statements others : List Statement}

theorem Records.congr (records : first.Records others)
    (alike : List.Forall₂ SameContent statements others) : first.Records statements where
  tallies := records.tallies.congr alike
  consistent := records.consistent
  axioms := by rw [records.axioms, filterMap_eq_of_sameContent SameContent.asserted?_eq alike]

theorem Records.entries_eq (records : first.Records statements) (again : second.Records others)
    (perm : others.Perm statements) (kind : EntityKind) :
    second.entries.get kind = first.entries.get kind := by
  have declared (declaration : Declaration) :
      declaration ∈ declaredBy others ↔ declaration ∈ declaredBy statements :=
    (perm.filterMap _).mem_iff
  have used (declaration : Declaration) :
      declaration ∈ usedBy others ↔ declaration ∈ usedBy statements :=
    (perm.flatMap_right _).mem_iff
  have explicit (iri : Iri) :
      second.origin? kind iri = some .explicit ↔ first.origin? kind iri = some .explicit :=
    (again.tallies.explicit ⟨kind, iri⟩).trans
      ((declared _).trans (records.tallies.explicit ⟨kind, iri⟩).symm)
  have implicit (iri : Iri) :
      second.origin? kind iri = some .implicit ↔ first.origin? kind iri = some .implicit := by
    rw [origin?_implicit_iff, origin?_implicit_iff, again.tallies.lists, records.tallies.lists,
      declared, used, Ne, explicit]
  -- Both lists are in the order of the names, so it is enough that they have the same members.
  refine Ordered.eq_of_mem_iff (second.ordered kind) (first.ordered kind) ?_
  rintro ⟨iri, origin⟩
  rw [mem_entries_iff, mem_entries_iff]
  cases origin with
  | explicit => exact explicit iri
  | implicit => exact implicit iri

theorem Records.characteristics_eq (records : first.Records statements)
    (again : second.Records others) (perm : others.Perm statements) (iri : Iri) :
    second.characteristics iri = first.characteristics iri := by
  refine again.consistent.characteristics_eq records.consistent (fun annotated => ?_) iri
  rw [again.axioms, records.axioms]
  exact (perm.filterMap _).mem_iff

/-- An order that keeps the axioms and the annotated declarations among themselves leaves the
same catalogue. -/
theorem Records.eq (records : first.Records statements) (again : second.Records others)
    (perm : others.Perm statements) (policy : second.policy = first.policy)
    (asserted : others.filterMap Statement.asserted? = statements.filterMap Statement.asserted?)
    (noted : others.filterMap Statement.noted? = statements.filterMap Statement.noted?) :
    second = first := by
  have entries : second.entries = first.entries :=
    ByKind.ext_get (records.entries_eq again perm)
  have annotated : second.annotated = first.annotated :=
    Array.toList_inj.mp (by rw [again.tallies.annotated, noted, records.tallies.annotated])
  have axioms : second.axioms = first.axioms :=
    Array.toList_inj.mp (by rw [again.axioms, asserted, records.axioms])
  have traits : second.traits = first.traits := by
    rw [again.consistent, records.consistent, axioms]
  obtain ⟨_, _, _, _, _, _⟩ := first
  obtain ⟨_, _, _, _, _, _⟩ := second
  simp_all

end Catalogue

/-! ## Orders -/

namespace Partition

/-- The pieces of a body in an order in which, under the explicit policy, no declaration comes
after a statement that it came before. -/
structure Reorders (policy : Policy) (parts : Partition)
    (body : List (Statement × List Lexeme)) : Prop where
  perm : body.Perm parts.body
  earlier : policy = .explicit → ∀ before piece others, body = before ++ piece :: others →
    ∃ first last, parts.body = first ++ piece :: last ∧
      ∀ declaration ∈ declaredBy (first.map (·.1)), declaration ∈ declaredBy (before.map (·.1))

/-- Under the implicit policy there is no such order to keep. -/
theorem reorders_of_perm {parts : Partition} {body : List (Statement × List Lexeme)}
    (perm : body.Perm parts.body) : parts.Reorders .implicit body :=
  ⟨perm, fun explicit => nomatch explicit⟩

def declares (piece : Statement × List Lexeme) : Bool := piece.1.declared?.isSome

/-- All declarations, and then all axioms, each group in the order it had. -/
def declarationsFirst (parts : Partition) : List (Statement × List Lexeme) :=
  parts.body.filter declares ++ parts.body.filter fun piece => !declares piece

theorem filterMap_filter_of_none {α : Type} {part : Statement → Option α}
    {keep : Statement × List Lexeme → Bool} (body : List (Statement × List Lexeme))
    (none : ∀ piece, keep piece = false → part piece.1 = none) :
    ((body.filter keep).map (·.1)).filterMap part = (body.map (·.1)).filterMap part := by
  induction body with
  | nil => rfl
  | cons piece body ih =>
    cases kept : keep piece with
    | true => simp only [List.filter_cons_of_pos kept, List.map_cons, List.filterMap_cons, ih]
    | false =>
      rw [List.filter_cons_of_neg (by simp [kept]), ih, List.map_cons,
        List.filterMap_cons_none (none piece kept)]

theorem declaredBy_filter (body : List (Statement × List Lexeme)) :
    declaredBy ((body.filter declares).map (·.1)) = declaredBy (body.map (·.1)) :=
  filterMap_filter_of_none body (by simp [declares])

theorem asserted?_of_declares {piece : Statement × List Lexeme} (declaration : declares piece = true) :
    piece.1.asserted? = none := by
  obtain ⟨statement, lexemes⟩ := piece
  cases statement with
  | declaration => rfl
  | assertion annotated => simp [declares, Statement.declared?] at declaration

theorem noted?_of_not_declares {piece : Statement × List Lexeme} (other : declares piece = false) :
    piece.1.noted? = none := by
  obtain ⟨statement, lexemes⟩ := piece
  cases statement with
  | declaration => simp [declares, Statement.declared?] at other
  | assertion annotated => rfl

theorem asserted_declarationsFirst (parts : Partition) :
    (parts.declarationsFirst.map (·.1)).filterMap Statement.asserted? =
      parts.statements.filterMap Statement.asserted? := by
  have silent : ((parts.body.filter declares).map (·.1)).filterMap Statement.asserted? = [] := by
    simpa [List.filterMap_eq_nil_iff] using fun statement lexemes _ declaration =>
      @asserted?_of_declares (statement, lexemes) declaration
  rw [declarationsFirst, List.map_append, List.filterMap_append, silent, List.nil_append]
  exact filterMap_filter_of_none parts.body fun piece other =>
    asserted?_of_declares (by simpa using other)

theorem noted_declarationsFirst (parts : Partition) :
    (parts.declarationsFirst.map (·.1)).filterMap Statement.noted? =
      parts.statements.filterMap Statement.noted? := by
  have silent : ((parts.body.filter fun piece => !declares piece).map (·.1)).filterMap
      Statement.noted? = [] := by
    simpa [List.filterMap_eq_nil_iff] using fun statement lexemes _ other =>
      @noted?_of_not_declares (statement, lexemes) other
  rw [declarationsFirst, List.map_append, List.filterMap_append, silent, List.append_nil]
  exact filterMap_filter_of_none parts.body fun piece => noted?_of_not_declares

theorem earlier_of_axiom {parts : Partition} {before : List (Statement × List Lexeme)}
    {piece : Statement × List Lexeme}
    (all : ∀ declaration ∈ declaredBy parts.statements, declaration ∈ declaredBy (before.map (·.1)))
    (member : piece ∈ parts.body) : ∃ first last, parts.body = first ++ piece :: last ∧
      ∀ declaration ∈ declaredBy (first.map (·.1)), declaration ∈ declaredBy (before.map (·.1)) := by
  obtain ⟨first, last, same⟩ := List.append_of_mem member
  refine ⟨first, last, same, fun declaration declared => all declaration ?_⟩
  rw [statements, same, List.map_append, declaredBy, List.filterMap_append]
  exact List.mem_append_left _ declared

theorem earlier_of_declaration {body before others : List (Statement × List Lexeme)}
    {piece : Statement × List Lexeme} (same : body.filter declares = before ++ piece :: others) :
    ∃ first last, body = first ++ piece :: last ∧
      ∀ declaration ∈ declaredBy (first.map (·.1)), declaration ∈ declaredBy (before.map (·.1)) := by
  obtain ⟨left, right, rfl, rfl, after⟩ := List.filter_eq_append_iff.mp same
  obtain ⟨axioms, last, rfl, none, -, -⟩ := List.filter_eq_cons_iff.mp after
  refine ⟨left ++ axioms, last, by simp, fun declaration declared => ?_⟩
  rw [← declaredBy_filter, List.filter_append, List.filter_eq_nil_iff.mpr none] at declared
  simpa using declared

theorem reorders_declarationsFirst (policy : Policy) (parts : Partition) :
    parts.Reorders policy parts.declarationsFirst where
  perm := List.filter_append_perm declares parts.body
  earlier _ before piece others same := by
    have all (more : List (Statement × List Lexeme)) : ∀ declaration ∈ declaredBy parts.statements,
        declaration ∈ declaredBy ((parts.body.filter declares ++ more).map (·.1)) := by
      intro declaration declared
      rw [List.map_append, declaredBy, List.filterMap_append, ← declaredBy, declaredBy_filter]
      exact List.mem_append_left _ declared
    rcases List.append_eq_append_iff.mp same with ⟨more, rfl, axioms⟩ | ⟨more, first, axioms⟩
    · refine earlier_of_axiom (all more) ?_
      exact (List.mem_filter.mp (axioms ▸ List.mem_append_right more List.mem_cons_self)).1
    · -- The order is cut among the declarations, or right after them.
      cases more with
      | nil =>
        rw [List.append_nil] at first
        subst first
        refine earlier_of_axiom (by simpa using all []) ?_
        exact (List.mem_filter.mp (axioms ▸ List.mem_cons_self)).1
      | cons found more =>
        obtain ⟨rfl, -⟩ := List.cons.inj axioms
        exact earlier_of_declaration first

end Partition

/-! ## Bodies in another order -/

section

variable {checks : Checks} {scope : Scope} {session read : Session Catalogue}
  {statement : Statement} {statements : List Statement}

theorem Reads.exists_written
    (first : Reads checks (Grammar.statement? scope) session (some statement) read)
    (tallies : session.store.Tallies statements)
    (fresh : ∀ declaration ∈ statement.declared?, declaration ∉ declaredBy statements) :
    ∃ written, (Grammar.write statement).run (Session.writer checks) read = (.ok (), written) := by
  rcases @run_write _ _ checks statement read with ⟨written, wrote, -⟩ |
    ⟨declaration, annotations, position, store, rfl, refused, -⟩
  · exact ⟨written, wrote⟩
  · have declined : read.store.declare declaration annotations = (false, store) := refused
    have earlier : read.store.origin? declaration.kind declaration.iri = some .explicit := by
      by_contra other
      simp [Catalogue.declare, other] at declined
    rw [first.explicit_iff, tallies.explicit] at earlier
    exact absurd earlier (fresh declaration rfl)

theorem exists_accepted_again {policy : Policy} {body : List (Statement × List Lexeme)}
    {rest : List Lexeme}
    (restates : ∀ before piece others, body = before ++ piece :: others →
      Restates checks scope.prefixes policy (declaredBy (statements ++ before.map (·.1))) piece)
    (distinct : (declaredBy (statements ++ body.map (·.1))).Nodup)
    (here : session.At (body.flatMap (·.2) ++ rest))
    (enough : session.stream.ahead.length < scope.limit) (same : session.store.policy = policy)
    (tallies : session.store.Tallies statements) :
    ∃ accepted last, Accepted checks scope session accepted last ∧ last.At rest ∧
      List.Forall₂ SameContent (body.map (·.1)) (accepted.map (·.1)) := by
  -- Piece by piece, the catalogue tells of the statements that were read till then.
  induction body generalizing session statements with
  | nil => exact ⟨[], session, .none, here, .nil⟩
  | cons piece body ih =>
    rw [List.flatMap_cons, List.append_assoc] at here
    have knows : ∀ declaration, policy = .implicit ∨ declaration ∈ declaredBy statements →
        session.store.Knows declaration := by
      rintro declaration (implicit | declared)
      · exact .inl (same.trans implicit)
      · exact .inr ((tallies.lists declaration).mpr (.inl declared))
    have stated : Restates checks scope.prefixes policy (declaredBy statements) piece := by
      simpa using restates [] piece body rfl
    obtain ⟨found, read, first, content, ended⟩ := stated.again rfl enough here knows
    rw [List.map_cons, ← content.declaredBy_eq] at distinct
    have fresh : ∀ declaration ∈ found.declared?, declaration ∉ declaredBy statements := by
      intro declaration declares earlier
      rw [declaredBy, List.append_assoc, List.filterMap_append] at distinct
      refine (List.nodup_append.mp distinct).2.2 declaration earlier declaration ?_ rfl
      exact List.mem_filterMap.mpr ⟨found, by simp, declares⟩
    obtain ⟨written, wrote⟩ := first.exists_written tallies fresh
    obtain ⟨writtenAt, shorter⟩ := first.written_at wrote here ended
    obtain ⟨accepted, last, chain, lastAt, alike⟩ := ih
      (fun before other others parts => by
        rw [content.declaredBy_eq]
        exact restates (piece :: before) other others (by rw [parts]; rfl))
      distinct writtenAt (Nat.lt_trans shorter enough) ((first.written_policy wrote).trans same)
      (tallies.step first wrote here enough)
    exact ⟨_, last, .more first wrote chain, lastAt, .cons content alike⟩

end

namespace Partition.Reorders

variable {policy : Policy} {parts : Partition} {body : List (Statement × List Lexeme)}

theorem statements (order : parts.Reorders policy body) :
    (body.map (·.1)).Perm parts.statements := order.perm.map _

theorem mem_lexemes (order : parts.Reorders policy body) {lexeme : Lexeme}
    (member : lexeme ∈ (parts.rearranged body).lexemes) : lexeme ∈ parts.lexemes := by
  have same : lexeme ∈ body.flatMap (·.2) ↔ lexeme ∈ parts.body.flatMap (·.2) :=
    (order.perm.flatMap_right _).mem_iff
  simpa [lexemes, inside, rearranged, same] using member

theorem nodup (order : parts.Reorders policy body) (distinct : (declaredBy parts.statements).Nodup) :
    (declaredBy (body.map (·.1))).Nodup :=
  (order.statements.filterMap _).nodup_iff.mpr distinct

theorem restates {checks : Checks} {prefixes : Prefixes}
    {before others : List (Statement × List Lexeme)} {piece : Statement × List Lexeme}
    (order : parts.Reorders policy body)
    (restates : ∀ before piece others, parts.body = before ++ piece :: others →
      Restates checks prefixes policy (declaredBy (before.map (·.1))) piece)
    (split : body = before ++ piece :: others) :
    Restates checks prefixes policy (declaredBy (before.map (·.1))) piece := by
  cases policy with
  | implicit =>
    -- Whatever is needed counts as declared, so any place of the piece in the body will do.
    have member : piece ∈ body := by simp [split]
    obtain ⟨first, last, same⟩ := List.append_of_mem (order.perm.subset member)
    exact (restates first piece last same).imp fun explicit => nomatch explicit
  | explicit =>
    obtain ⟨first, last, same, less⟩ := order.earlier rfl before piece others split
    exact (restates first piece last same).imp fun _ => less

end Partition.Reorders

/-! ## Documents in another order -/

namespace Document

variable {settings : Settings} {start after : Session Catalogue} {ontology : Ontology}
  {statements : List Statement} {parts : Partition}

/-- A document is read to its end if its preamble is, if what each piece needs is declared in time,
and if nothing follows the closing. -/
theorem exists_completes_again {twin middle : Session Catalogue}
    {body : List (Statement × List Lexeme)} {closing left : List Lexeme}
    (read : Reads settings.checks (preamble settings twin) twin ontology middle)
    (here : middle.At (body.flatMap (·.2) ++ closing)) (closes : Closes closing left)
    (ended : significant left = [])
    (restates : ∀ before piece others, body = before ++ piece :: others →
      Restates settings.checks ontology.prefixes middle.store.policy
        (declaredBy (before.map (·.1))) piece)
    (distinct : (declaredBy (body.map (·.1))).Nodup) (blank : middle.store.Tallies []) :
    ∃ found final, Completes settings twin ontology found final ∧
      List.Forall₂ SameContent (body.map (·.1)) found := by
  have fits : middle.stream.ahead.length < (Scope.mk ontology.prefixes (limit middle)).limit :=
    Nat.lt_succ_self _
  obtain ⟨accepted, last, again, lastAt, same⟩ :=
    exists_accepted_again restates distinct here fits rfl blank
  obtain ⟨closed, close, reached⟩ :=
    Acceptance.reads_closing settings.checks ⟨ontology.prefixes, limit middle⟩ closes lastAt
  obtain ⟨final, finishes⟩ :=
    Acceptance.reads_ending settings.checks ended (close.atAhead lastAt reached)
  exact ⟨_, final, .intro read again close finishes rfl, same⟩

/-- A document that is read to its end has the statements of its pieces. In another order, and
around them the same opening and closing, it is read to its end as well. -/
theorem Completes.reorder (completes : Completes settings start ontology statements after)
    (begins : start.Begins parts.lexemes) (blank : start.store.Tallies [])
    (spells : parts.Spells settings.prefixes ontology) :
    List.Forall₂ SameContent parts.statements statements ∧
      ∀ {body : List (Statement × List Lexeme)} {twin : Session Catalogue},
        parts.Reorders start.store.policy body →
        twin.Begins (parts.rearranged body).lexemes → twin.store = start.store →
        ∃ found final, Completes settings twin ontology found final ∧
          List.Forall₂ SameContent (body.map (·.1)) found := by
  obtain ⟨read, chain, close, finish, rfl⟩ := completes
  obtain ⟨bindings, distinct, extended, opens⟩ := spells.opens
  obtain ⟨left, closes, ended⟩ := spells.closes
  obtain ⟨_, opening, rest, cut, middleAt, -, -, opened, reopen⟩ :=
    read.preamble_again (Nat.lt_succ_self _) begins
  -- The opening of the partition is the one that was read.
  have joined : parts.opening ++ parts.inside = opening ++ rest := cut
  obtain rfl : rest = parts.inside :=
    (opened rest).unique (joined ▸ opens.before parts.inside)
  obtain rfl : parts.opening = opening := List.append_cancel_right joined
  have untouched := read.store_of_looksUp (.preamble ..)
  have empty := blank
  rw [← untouched] at empty
  obtain ⟨alike, restates⟩ := chain.restates close spells.states closes middleAt
    (Nat.lt_succ_self _) empty
  have apart : (declaredBy parts.statements).Nodup := by
    rw [declaredBy, Partition.statements,
      filterMap_eq_of_sameContent SameContent.declared?_eq alike]
    exact chain.nodup_declaredBy middleAt (Nat.lt_succ_self _) empty List.nodup_nil
  rw [untouched] at restates
  refine ⟨alike, fun {body twin} order again stored => ?_⟩
  have states : ∀ piece ∈ body, States ontology.prefixes piece :=
    fun piece member => spells.states piece (order.perm.subset member)
  have telling := body_first (Spelling.sequence_pieces states parts.closing) closes
  obtain ⟨middle, reread, againAt⟩ :=
    reopen again (fun _ known => stored ▸ known) (Nat.lt_succ_self _) telling
  have kept := (reread.store_of_looksUp (.preamble ..)).trans stored
  refine exists_completes_again reread againAt closes ended (fun before piece others split => ?_)
    (order.nodup apart) (kept ▸ blank)
  rw [kept]
  exact order.restates restates split

def before (settings : Settings) (lexemes : List Lexeme) : Session Catalogue where
  stream := { source := "", ahead := lexemes, looksAtEnd := false, pending := none }
  store := .empty settings.policy

theorem before_begins (settings : Settings) {lexemes : List Lexeme}
    (visible : ∀ lexeme ∈ lexemes, lexeme.token ≠ .eof) :
    (prepare settings (before settings lexemes)).Begins lexemes :=
  prepare_begins settings ⟨rfl, visible, rfl⟩

theorem before_store (settings : Settings) (lexemes : List Lexeme) :
    (prepare settings (before settings lexemes)).store = .empty settings.policy :=
  prepare_store settings _

/-- What is read from given lexemes is read from every input that is laid like them. -/
theorem read_of_laidAlike {lexemes : List Lexeme} (name : String) {other : Input}
    (noEof : ∀ lexeme ∈ lexemes, lexeme.token ≠ .eof) (sound : other.fault = none)
    (laid : LaidAlike lexemes (Lexeme.lexemesOf other.chars))
    (completes : Completes settings (prepare settings (before settings lexemes)) ontology statements
      after) :
    (read settings name other).result = .ok ontology ∧
      (read settings name other).session.store = after.store := by
  have alike : (before settings lexemes).LaidAlike (opened settings name other) :=
    ⟨laid, laid, noEof, Stream.ofInput_noEof name other, rfl⟩
  obtain ⟨-, ends⟩ := perform_laidAlike settings alike
  have met : (perform settings (opened settings name other)).2.2.stream.met = none :=
    perform_ofInput_met settings name sound _
  rw [completes.perform_eq] at ends
  rw [read, readInto_eq_conclude]
  generalize perform settings (opened settings name other) = run at ends met ⊢
  obtain ⟨header, result, final⟩ := run
  cases ends with
  | ok same kept =>
    subst same
    exact ⟨conclude_result_ok met ontology, kept.store.symm⟩

theorem Completes.records (completes : Completes settings start ontology statements after)
    (noEof : start.stream.NoEof) (empty : start.store = .empty settings.policy) :
    after.store.policy = settings.policy ∧ after.store.Records statements := by
  obtain ⟨policy, tallies, -⟩ :=
    completes.tallies noEof (empty ▸ Catalogue.tallies_empty settings.policy)
  have axioms := completes.axioms
  rw [empty] at policy axioms
  exact ⟨policy, tallies,
    completes.consistent (empty ▸ Catalogue.consistent_empty settings.policy), axioms⟩

theorem records_of_laidAlike {lexemes : List Lexeme} {found : List Statement} (name : String)
    {other : Input} (visible : ∀ lexeme ∈ lexemes, lexeme.token ≠ .eof) (sound : other.fault = none)
    (laid : LaidAlike lexemes (Lexeme.lexemesOf other.chars))
    (completes : Completes settings (prepare settings (before settings lexemes)) ontology found
      after)
    (same : List.Forall₂ SameContent statements found) :
    let again := (read settings name other).session.store
    (read settings name other).result = .ok ontology ∧ again.policy = settings.policy ∧
      again.Records statements := by
  intro again
  obtain ⟨told, left⟩ := read_of_laidAlike name visible sound laid completes
  obtain ⟨policy, records⟩ :=
    completes.records (before_begins settings visible).noEof (before_store settings lexemes)
  rw [← left] at policy records
  exact ⟨told, policy, records.congr same⟩

theorem read_again {source : String} {input : Input}
    (accepted : (read settings source input).result = .ok ontology)
    (spells : parts.Spells settings.prefixes ontology)
    (whole : parts.lexemes = Lexeme.lexemesOf input.chars) :
    let store := (read settings source input).session.store
    (store.policy = settings.policy ∧ store.Records parts.statements) ∧
      ∀ {body : List (Statement × List Lexeme)} (name : String) {other : Input},
        parts.Reorders settings.policy body → other.fault = none →
        LaidAlike (parts.rearranged body).lexemes (Lexeme.lexemesOf other.chars) →
        let again := (read settings name other).session.store
        (read settings name other).result = .ok ontology ∧ again.policy = settings.policy ∧
          again.Records (body.map (·.1)) := by
  intro store
  obtain ⟨statements, after, completes, stored⟩ := completes_of_ok accepted
  change store = after.store at stored
  have begins := opened_begins settings source input
  have empty := opened_store settings source input
  obtain ⟨alike, reorder⟩ := completes.reorder (whole ▸ begins)
    (empty ▸ Catalogue.tallies_empty settings.policy) spells
  obtain ⟨policy, records⟩ := completes.records begins.noEof empty
  rw [← stored] at policy records
  refine ⟨⟨policy, records.congr alike⟩, fun {body} name {other} order sound laid => ?_⟩
  intro again
  -- The other order is read from its lexemes first, and then from the input that is laid like them.
  have visible : ∀ lexeme ∈ (parts.rearranged body).lexemes, lexeme.token ≠ .eof := by
    intro lexeme member
    have found := order.mem_lexemes member
    rw [whole, ← begins.ahead] at found
    exact begins.noEof lexeme found
  obtain ⟨found, final, finishes, same⟩ := reorder (empty ▸ order)
    (before_begins settings visible) ((before_store settings _).trans empty.symm)
  exact records_of_laidAlike name visible sound laid finishes same

/-- The order of statements. An accepted document falls into its opening, its statements and its
closing. Under the implicit policy the statements can stand in any order: every document with the
tokens of another order is accepted with the same ontology, the same entries for each kind and the
same characteristics, and it leaves the axioms and the annotated declarations in that order. Under
the explicit policy all declarations can be moved before all axioms, which changes nothing. -/
theorem read_reordered {source : String} {input : Input}
    (accepted : (read settings source input).result = .ok ontology) :
    let store := (read settings source input).session.store
    (∃ parts : Partition, parts.Spells settings.prefixes ontology ∧
      parts.lexemes = Lexeme.lexemesOf input.chars) ∧
    ∀ parts : Partition, parts.Spells settings.prefixes ontology →
      parts.lexemes = Lexeme.lexemesOf input.chars →
      store.axioms.toList = parts.statements.filterMap Statement.asserted? ∧
      store.annotated.toList = parts.statements.filterMap Statement.noted? ∧
      ∀ (name : String) (other : Input), other.fault = none →
        let again := (read settings name other).session.store
        (settings.policy = .implicit → ∀ body : List (Statement × List Lexeme),
          body.Perm parts.body →
          LaidAlike (parts.rearranged body).lexemes (Lexeme.lexemesOf other.chars) →
          (read settings name other).result = .ok ontology ∧
          (∀ kind, again.entries.get kind = store.entries.get kind) ∧
          (∀ iri, again.characteristics iri = store.characteristics iri) ∧
          again.axioms.toList = (body.map (·.1)).filterMap Statement.asserted? ∧
          again.annotated.toList = (body.map (·.1)).filterMap Statement.noted?) ∧
        (settings.policy = .explicit →
          LaidAlike (parts.rearranged parts.declarationsFirst).lexemes
            (Lexeme.lexemesOf other.chars) →
          (read settings name other).result = .ok ontology ∧ again = store) := by
  intro store
  refine ⟨?_, fun parts spells whole => ?_⟩
  · obtain ⟨statements, after, completes, -⟩ := completes_of_ok accepted
    obtain ⟨ahead, noEof, -⟩ := opened_begins settings source input
    rw [← ahead]
    exact completes.exists_partition noEof
  · obtain ⟨⟨policy, records⟩, reread⟩ := read_again accepted spells whole
    refine ⟨records.axioms, records.tallies.annotated, fun name other sound => ⟨?_, ?_⟩⟩
    · intro implicit body perm laid
      have order : parts.Reorders settings.policy body := implicit ▸ Partition.reorders_of_perm perm
      obtain ⟨told, -, recorded⟩ := reread name order sound laid
      exact ⟨told, records.entries_eq recorded order.statements,
        records.characteristics_eq recorded order.statements, recorded.axioms,
        recorded.tallies.annotated⟩
    · intro _ laid
      have order := parts.reorders_declarationsFirst settings.policy
      obtain ⟨told, same, recorded⟩ := reread name order sound laid
      exact ⟨told, records.eq recorded order.statements (same.trans policy.symm)
        parts.asserted_declarationsFirst parts.noted_declarationsFirst⟩

def usedThenDeclaredParts : Partition where
  opening := [⟨.keyword .ontology, "Ontology"⟩, ⟨.openParen, "("⟩, ⟨.iri, "<o:o>"⟩]
  body := [
    (.assertion ⟨.subClassOf (.named ⟨⟨"a:A"⟩⟩)
        (.objectQuantified .some (.named ⟨⟨"a:p"⟩⟩) (.named ⟨⟨"a:B"⟩⟩)), []⟩,
      [⟨.keyword .subClassOf, "SubClassOf"⟩, ⟨.openParen, "("⟩, ⟨.iri, "<a:A>"⟩, ⟨.blank, " "⟩,
        ⟨.keyword (.objectQuantifier .some), "ObjectSomeValuesFrom"⟩, ⟨.openParen, "("⟩,
        ⟨.iri, "<a:p>"⟩, ⟨.blank, " "⟩, ⟨.iri, "<a:B>"⟩, ⟨.closeParen, ")"⟩, ⟨.closeParen, ")"⟩]),
    (.declaration ⟨.owlClass, ⟨"a:A"⟩⟩ [] ⟨"", 0, ""⟩,
      [⟨.keyword .declaration, "Declaration"⟩, ⟨.openParen, "("⟩,
        ⟨.keyword (.entity .owlClass), "Class"⟩, ⟨.openParen, "("⟩, ⟨.iri, "<a:A>"⟩,
        ⟨.closeParen, ")"⟩, ⟨.closeParen, ")"⟩])]
  closing := [⟨.closeParen, ")"⟩]

theorem usedThenDeclaredParts_spells :
    usedThenDeclaredParts.Spells .empty ⟨⟨"o:o"⟩, none, .empty⟩ where
  opens := ⟨[], List.nodup_nil, rfl, _, .nil, _, _, ⟨_, ⟨_, rfl⟩, _, rfl⟩, rfl, rfl⟩
  states := by
    have foreign : Vocabulary.owlName? ⟨"a:A"⟩ = none ∧ Vocabulary.owlName? ⟨"a:p"⟩ = none ∧
        Vocabulary.owlName? ⟨"a:B"⟩ = none := by decide +kernel
    intro piece member
    simp only [usedThenDeclaredParts, List.mem_cons, List.not_mem_nil, or_false] at member
    rcases member with rfl | rfl
    · refine ⟨.assertion ⟨_, ⟨_, rfl⟩, _, rfl⟩ .nil (.subClassOf (.named (.bracketed rfl))
        (.objectQuantified ⟨_, ⟨_, rfl⟩, _, rfl⟩ (.named (.bracketed rfl)) (.named (.bracketed rfl))
          ⟨_, rfl⟩)) ⟨_, rfl⟩, ?_⟩
      simp [Statement.references, Axiom.references, ClassExpression.references,
        ObjectPropertyExpression.references, Declaration.Usable, foreign]
    · refine ⟨.declaration ⟨_, ⟨_, rfl⟩, _, rfl⟩ .nil ⟨_, ⟨_, rfl⟩, _, rfl⟩ (.bracketed rfl)
        ⟨_, rfl⟩ ⟨_, rfl⟩, ?_⟩
      simp [Statement.references]
  closes := ⟨[], ⟨_, rfl⟩, rfl⟩

def declaredThenUsed : Input where
  bytes := ("Ontology(<o:o> Declaration(Class(<a:A>)) # used\n" ++
    "SubClassOf(<a:A> ObjectSomeValuesFrom(<a:p>\n<a:B>)))").toList.map fun letter =>
      .ofNat letter.toNat

theorem read_declared_then_used :
    let settings : Settings := { policy := .implicit }
    let ontology : Ontology := ⟨⟨"o:o"⟩, none, .empty⟩
    let body := usedThenDeclaredParts.body.reverse
    let store := (read settings "" usedThenDeclared).session.store
    let again := (read settings "" declaredThenUsed).session.store
    (read settings "" usedThenDeclared).result = .ok ontology ∧
      store.entries.get .owlClass = [⟨⟨"a:A"⟩, .explicit⟩, ⟨⟨"a:B"⟩, .implicit⟩] ∧
      usedThenDeclaredParts.Spells settings.prefixes ontology ∧
      usedThenDeclaredParts.lexemes = Lexeme.lexemesOf usedThenDeclared.chars ∧
      LaidAlike (usedThenDeclaredParts.rearranged body).lexemes
        (Lexeme.lexemesOf declaredThenUsed.chars) ∧
      (read settings "" declaredThenUsed).result = .ok ontology ∧
      (∀ kind, again.entries.get kind = store.entries.get kind) ∧
      (∀ iri, again.characteristics iri = store.characteristics iri) ∧
      again.axioms.toList = (body.map (·.1)).filterMap Statement.asserted? ∧
      again.annotated.toList = (body.map (·.1)).filterMap Statement.noted? := by
  intro settings ontology body
  have accepted : (read settings "" usedThenDeclared).result = .ok ontology := by decide +kernel
  have classes : (read settings "" usedThenDeclared).session.store.entries.get .owlClass =
      [⟨⟨"a:A"⟩, .explicit⟩, ⟨⟨"a:B"⟩, .implicit⟩] := by decide +kernel
  have whole : usedThenDeclaredParts.lexemes = Lexeme.lexemesOf usedThenDeclared.chars := by
    decide +kernel
  -- Without the further trivia these are the lexemes of the other order.
  have plain : (usedThenDeclaredParts.rearranged body).lexemes =
      Lexeme.lexemesOf ("Ontology(<o:o>Declaration(Class(<a:A>))" ++
        "SubClassOf(<a:A> ObjectSomeValuesFrom(<a:p> <a:B>)))").toList := by
    decide +kernel
  have laid : LaidAlike (usedThenDeclaredParts.rearranged body).lexemes
      (Lexeme.lexemesOf declaredThenUsed.chars) := by
    rw [plain]
    exact .of_texts (by decide +kernel) (by decide +kernel)
  have spells := usedThenDeclaredParts_spells
  obtain ⟨-, -, others⟩ := (read_reordered accepted).2 _ spells whole
  have sound : declaredThenUsed.fault = none := by decide +kernel
  exact ⟨accepted, classes, spells, whole, laid,
    (others "" declaredThenUsed sound).1 rfl body (List.reverse_perm _) laid⟩

end Document

end OwlFunctional
