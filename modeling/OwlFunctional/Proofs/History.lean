import OwlFunctional.Proofs.Policies

/-! What the calls of a store leave behind.

A catalogue is reached by look-ups, declarations and axioms, in any order. Each name of a kind is in
one of two buckets: with the declared ones if some call declares it, and with the used ones if it
was looked up, declared by no call, and the policy lets a use declare.
-/

set_option autoImplicit false

namespace OwlFunctional

inductive Operation where
  /-- A look-up for use in the place of a kind. -/
  | find (kind : EntityKind) (iri : Iri)
  | declare (declaration : Declaration) (annotations : List Annotation)
  | add (annotated : AnnotatedAxiom)

namespace Operation

def apply (catalogue : Catalogue) : Operation → Catalogue
  | find kind iri => (Store.find kind iri catalogue).2
  | declare declaration annotations => (catalogue.declare declaration annotations).2
  | add annotated => catalogue.add annotated

def found? : Operation → Option Declaration
  | find kind iri => some ⟨kind, iri⟩
  | _ => none

def declared? : Operation → Option Declaration
  | declare declaration _ => some declaration
  | _ => none

def added? : Operation → Option AnnotatedAxiom
  | add annotated => some annotated
  | _ => none

end Operation

namespace Catalogue

def after (catalogue : Catalogue) (operations : List Operation) : Catalogue :=
  operations.foldl Operation.apply catalogue

/-- The names of a kind that were declared in the given way. -/
def bucket (catalogue : Catalogue) (origin : Origin) (kind : EntityKind) : List Iri :=
  ((catalogue.entries.get kind).filter fun entry => entry.origin == origin).map (·.iri)

variable {catalogue : Catalogue}

theorem length_bucket (catalogue : Catalogue) (origin : Origin) (kind : EntityKind) :
    (catalogue.bucket origin kind).length = catalogue.countOf origin kind := by
  rw [bucket, List.length_map, countOf, List.countP_eq_length_filter]

theorem mem_bucket_iff (catalogue : Catalogue) (origin : Origin) (kind : EntityKind) (iri : Iri) :
    iri ∈ catalogue.bucket origin kind ↔ catalogue.origin? kind iri = some origin := by
  rw [← mem_entries_iff]
  simp only [bucket, List.mem_map, List.mem_filter, beq_iff_eq]
  constructor
  · rintro ⟨entry, ⟨member, rfl⟩, rfl⟩
    exact member
  · intro member
    exact ⟨_, ⟨member, rfl⟩, rfl⟩

theorem count_eq (catalogue : Catalogue) (kind : EntityKind) :
    catalogue.count kind = catalogue.countOf .explicit kind + catalogue.countOf .implicit kind := by
  unfold count countOf
  rw [List.length_eq_countP_add_countP fun entry : Entry => entry.origin == .explicit]
  congr 2
  funext entry
  cases entry.origin <;> rfl

/-! ## One call -/

theorem lookup_lists_iff (kind : EntityKind) (iri : Iri) (catalogue : Catalogue)
    (declaration : Declaration) : (catalogue.lookup kind iri).2.Lists declaration ↔
      catalogue.Lists declaration ∨ catalogue.policy = .implicit ∧ ⟨kind, iri⟩ = declaration := by
  unfold lookup
  split
  · next origin listed =>
    refine (or_iff_left_of_imp ?_).symm
    rintro ⟨-, rfl⟩
    simp [Lists, listed]
  · next explicit => simp [explicit]
  · next implicit => rw [lists_list_iff, implicit, eq_comm, and_iff_right rfl]

theorem lookup_entries_of_ne {kind other : EntityKind} (iri : Iri) (catalogue : Catalogue)
    (different : other ≠ kind) :
    (catalogue.lookup kind iri).2.entries.get other = catalogue.entries.get other := by
  unfold lookup
  split
  · rfl
  · rfl
  · exact ByKind.get_set_of_ne _ _ different

theorem declare_origin? (declaration : Declaration) (annotations : List Annotation)
    (catalogue : Catalogue) (other : Declaration) :
    (catalogue.declare declaration annotations).2.origin? other.kind other.iri =
      if other = declaration then some .explicit else catalogue.origin? other.kind other.iri := by
  have listed := origin?_list catalogue declaration .explicit other
  unfold declare
  split
  · next twice =>
    split
    · next same => rw [same, twice]
    · rfl
  · dsimp only
    split <;> exact listed

theorem declare_taken_iff (declaration : Declaration) (annotations : List Annotation)
    (catalogue : Catalogue) : (catalogue.declare declaration annotations).1 = true ↔
      catalogue.origin? declaration.kind declaration.iri ≠ some .explicit := by
  unfold declare
  split
  · next twice => simp [twice]
  · next first => simp [first]

theorem declare_refused {declaration : Declaration} {annotations : List Annotation}
    (refused : (catalogue.declare declaration annotations).1 = false) :
    (catalogue.declare declaration annotations).2 = catalogue := by
  unfold declare at refused ⊢
  split
  · rfl
  · next first => simp [first] at refused

end Catalogue

/-! ## All calls -/

/-- What a catalogue tells of the calls that brought it about. -/
structure Catalogue.Recounts (catalogue : Catalogue) (policy : Policy)
    (operations : List Operation) : Prop where
  kept : catalogue.policy = policy
  consistent : catalogue.Consistent
  explicit : ∀ declaration, catalogue.origin? declaration.kind declaration.iri = some .explicit ↔
    declaration ∈ operations.filterMap Operation.declared?
  lists : ∀ declaration, catalogue.Lists declaration ↔
    declaration ∈ operations.filterMap Operation.declared? ∨
      policy = .implicit ∧ declaration ∈ operations.filterMap Operation.found?
  axioms : catalogue.axioms.toList = operations.filterMap Operation.added?

namespace Operation

variable {catalogue : Catalogue} {policy : Policy} {operations : List Operation}

theorem apply_find (kind : EntityKind) (iri : Iri) (catalogue : Catalogue) :
    apply catalogue (find kind iri) = (catalogue.lookup kind iri).2 := rfl

theorem mem_filterMap_concat {α : Type} {part : Operation → Option α} {operation : Operation}
    {item : α} : item ∈ (operations ++ [operation]).filterMap part ↔
      item ∈ operations.filterMap part ∨ part operation = some item := by
  simp

theorem apply_policy (operation : Operation) (catalogue : Catalogue) :
    (operation.apply catalogue).policy = catalogue.policy := by
  cases operation with
  | find kind iri => exact (catalogue.grows_lookup kind iri).policy
  | declare declaration annotations =>
    exact catalogue.write_policy (.declaration declaration annotations default)
  | add annotated => exact catalogue.write_policy (.assertion annotated)

theorem apply_consistent (operation : Operation) (consistent : catalogue.Consistent) :
    (operation.apply catalogue).Consistent := by
  cases operation with
  | find kind iri => exact consistent.lookup kind iri
  | declare declaration annotations =>
    exact consistent.write (.declaration declaration annotations default)
  | add annotated => exact consistent.write (.assertion annotated)

/-- Only a declaration makes an entity an explicit one, and no call takes that back. -/
theorem apply_explicit_iff (operation : Operation) (catalogue : Catalogue)
    (declaration : Declaration) :
    (operation.apply catalogue).origin? declaration.kind declaration.iri = some .explicit ↔
      catalogue.origin? declaration.kind declaration.iri = some .explicit ∨
        operation.declared? = some declaration := by
  cases operation with
  | find kind iri => simpa [apply_find, declared?] using catalogue.lookup_explicit kind iri declaration
  | declare declared annotations =>
    rw [apply, Catalogue.declare_origin?, declared?, Option.some.injEq, eq_comm (a := declared)]
    split
    · next same => simp [same]
    · next other => simp [other]
  | add annotated =>
    rw [apply, Catalogue.add_eq]
    simp [declared?, Catalogue.origin?]

/-- A name is listed from its first declaration on, or from its first use if the policy is the
implicit one. -/
theorem apply_lists_iff (operation : Operation) (catalogue : Catalogue)
    (declaration : Declaration) : (operation.apply catalogue).Lists declaration ↔
      catalogue.Lists declaration ∨ operation.declared? = some declaration ∨
        catalogue.policy = .implicit ∧ operation.found? = some declaration := by
  cases operation with
  | find kind iri =>
    simpa [apply_find, declared?, found?] using catalogue.lookup_lists_iff kind iri declaration
  | declare declared annotations =>
    rw [Catalogue.Lists, apply, Catalogue.declare_origin?]
    split
    · next same => simp [declared?, same]
    · next other => simp [declared?, found?, Ne.symm other, Catalogue.Lists]
  | add annotated =>
    rw [apply, Catalogue.add_eq]
    simp [declared?, found?, Catalogue.Lists, Catalogue.origin?]

theorem apply_axioms (operation : Operation) (catalogue : Catalogue) :
    (operation.apply catalogue).axioms.toList =
      catalogue.axioms.toList ++ operation.added?.toList := by
  cases operation with
  | find kind iri =>
    have kept := (catalogue.grows_lookup kind iri).axioms
    simpa [apply_find, added?] using congrArg Array.toList kept
  | declare declaration annotations =>
    exact catalogue.write_axioms (.declaration declaration annotations default)
  | add annotated => exact catalogue.write_axioms (.assertion annotated)

theorem apply_recounts (operation : Operation) (recounts : catalogue.Recounts policy operations) :
    (operation.apply catalogue).Recounts policy (operations ++ [operation]) where
  kept := (operation.apply_policy catalogue).trans recounts.kept
  consistent := operation.apply_consistent recounts.consistent
  explicit declaration := by
    rw [operation.apply_explicit_iff, recounts.explicit, mem_filterMap_concat]
  lists declaration := by
    rw [operation.apply_lists_iff, recounts.lists, recounts.kept, mem_filterMap_concat,
      mem_filterMap_concat]
    tauto
  axioms := by
    rw [operation.apply_axioms, recounts.axioms, List.filterMap_append]
    cases operation <;> rfl

end Operation

namespace Catalogue

variable {catalogue : Catalogue} {policy : Policy} {operations : List Operation}

theorem recounts_empty (policy : Policy) : (empty policy).Recounts policy [] where
  kept := rfl
  consistent := consistent_empty policy
  explicit declaration := by simpa [declaredBy] using (tallies_empty policy).explicit declaration
  lists declaration := by
    simpa [declaredBy, usedBy] using (tallies_empty policy).lists declaration
  axioms := rfl

theorem Recounts.after (recounts : catalogue.Recounts policy operations)
    (more : List Operation) : (catalogue.after more).Recounts policy (operations ++ more) := by
  induction more generalizing catalogue operations with
  | nil => simpa [Catalogue.after] using recounts
  | cons operation more ih => simpa [Catalogue.after] using ih (operation.apply_recounts recounts)

/-- A name is in one of the buckets at most: with the declared ones if a call declares it, else
with the used ones if a use declares. -/
theorem Recounts.mem_bucket_iff (recounts : catalogue.Recounts policy operations)
    (kind : EntityKind) (iri : Iri) :
    (iri ∈ catalogue.bucket .explicit kind ↔
      ⟨kind, iri⟩ ∈ operations.filterMap Operation.declared?) ∧
    (iri ∈ catalogue.bucket .implicit kind ↔
      ⟨kind, iri⟩ ∉ operations.filterMap Operation.declared? ∧
        policy = .implicit ∧ ⟨kind, iri⟩ ∈ operations.filterMap Operation.found?) := by
  have explicit : catalogue.origin? kind iri = some .explicit ↔ _ := recounts.explicit ⟨kind, iri⟩
  refine ⟨(catalogue.mem_bucket_iff .explicit kind iri).trans explicit, ?_⟩
  rw [catalogue.mem_bucket_iff, origin?_implicit_iff, recounts.lists, ne_eq, explicit,
    and_comm, and_congr_right_iff]
  exact fun undeclared => or_iff_right undeclared

theorem Recounts.mem_declarations_iff (recounts : catalogue.Recounts policy operations)
    (kind : EntityKind) (iri : Iri) : ⟨kind, iri⟩ ∈ catalogue.declarations kind ↔
      iri ∈ catalogue.bucket .explicit kind ∨ iri ∈ catalogue.bucket .implicit kind := by
  rw [Catalogue.mem_declarations_iff, recounts.lists, (recounts.mem_bucket_iff kind iri).1,
    (recounts.mem_bucket_iff kind iri).2]
  tauto

theorem declarations_ordered (catalogue : Catalogue) (kind : EntityKind) :
    Ordered (fun declaration : Declaration => declaration.iri.text) (catalogue.declarations kind) :=
  List.pairwise_map.mpr (catalogue.ordered kind)

theorem Recounts.explicit_policy (recounts : catalogue.Recounts .explicit operations)
    (kind : EntityKind) : catalogue.countOf .implicit kind = 0 ∧
      ∀ iri, (Store.find kind iri catalogue).2 = catalogue := by
  refine ⟨?_, fun iri => (catalogue.grows_lookup kind iri).fixed recounts.kept⟩
  rw [← length_bucket, List.length_eq_zero_iff, List.eq_nil_iff_forall_not_mem]
  intro iri member
  simp [(recounts.mem_bucket_iff kind iri).2] at member

theorem Recounts.declare_taken_iff (recounts : catalogue.Recounts policy operations)
    (declaration : Declaration) (annotations : List Annotation) :
    (catalogue.declare declaration annotations).1 = true ↔
      ∀ notes, .declare declaration notes ∉ operations := by
  rw [Catalogue.declare_taken_iff, ne_eq, recounts.explicit, List.mem_filterMap]
  constructor
  · intro first notes member
    exact first ⟨_, member, rfl⟩
  · rintro none ⟨operation, member, declares⟩
    cases operation with
    | declare declared notes =>
      obtain rfl := Option.some.inj declares
      exact none notes member
    | _ => simp [Operation.declared?] at declares

/-- The state of a store that any calls have brought about. In each kind no name is in both buckets,
and the declarations are the names of both in strictly increasing order. Under the explicit policy
nothing is declared by its use, and a look-up changes nothing; under both it leaves the other kinds
as they are. What is declared stays declared by all further calls, and what is so by a declaration
stays so. A declaration is taken exactly if none of the calls before has declared the entity, and
one that is not taken changes nothing. The axioms are those that were added, in their order. -/
theorem reached_by_calls (policy : Policy) (operations : List Operation) :
    let store := (empty policy).after operations
    (∀ kind,
      (∀ iri, ¬ (iri ∈ store.bucket .explicit kind ∧ iri ∈ store.bucket .implicit kind)) ∧
      (∀ iri, ⟨kind, iri⟩ ∈ store.declarations kind ↔
        iri ∈ store.bucket .explicit kind ∨ iri ∈ store.bucket .implicit kind) ∧
      Ordered (fun declaration : Declaration => declaration.iri.text) (store.declarations kind) ∧
      (store.declarations kind).length = store.count kind ∧
      store.count kind = store.countOf .explicit kind + store.countOf .implicit kind ∧
      (∀ origin, store.countOf origin kind = (store.bucket origin kind).length) ∧
      (policy = .explicit → store.countOf .implicit kind = 0 ∧
        ∀ iri, (Store.find kind iri store).2 = store) ∧
      ∀ iri other, other ≠ kind →
        (Store.find kind iri store).2.entries.get other = store.entries.get other) ∧
    (∀ kind iri more,
      (⟨kind, iri⟩ ∈ store.declarations kind →
        ⟨kind, iri⟩ ∈ (store.after more).declarations kind) ∧
      (iri ∈ store.bucket .explicit kind → iri ∈ (store.after more).bucket .explicit kind)) ∧
    (∀ declaration annotations,
      ((store.declare declaration annotations).1 = true ↔
        ∀ notes, .declare declaration notes ∉ operations) ∧
      ((store.declare declaration annotations).1 = false →
        (store.declare declaration annotations).2 = store)) ∧
    store.axioms.toList = operations.filterMap Operation.added? := by
  intro store
  have recounts : store.Recounts policy operations := (recounts_empty policy).after operations
  refine ⟨fun kind => ⟨fun iri both => ?_, recounts.mem_declarations_iff kind,
    store.declarations_ordered kind, List.length_map _, store.count_eq kind,
    fun origin => (store.length_bucket origin kind).symm, ?_, fun iri other different => ?_⟩,
    fun kind iri more => ?_,
    fun declaration annotations => ⟨recounts.declare_taken_iff declaration annotations,
      declare_refused⟩, recounts.axioms⟩
  · obtain ⟨declared, used⟩ := recounts.mem_bucket_iff kind iri
    exact (used.mp both.2).1 (declared.mp both.1)
  · rintro rfl
    exact recounts.explicit_policy kind
  · exact lookup_entries_of_ne iri store different
  · have later := recounts.after more
    constructor
    · rw [Catalogue.mem_declarations_iff, Catalogue.mem_declarations_iff, recounts.lists,
        later.lists, List.filterMap_append, List.filterMap_append]
      simp only [List.mem_append]
      tauto
    · rw [(recounts.mem_bucket_iff kind iri).1, (later.mem_bucket_iff kind iri).1,
        List.filterMap_append]
      exact List.mem_append_left _

example :
    let used := (empty .implicit).after [.find .owlClass ⟨"a:A"⟩]
    let declared := used.after [.declare ⟨.owlClass, ⟨"a:A"⟩⟩ []]
    used.bucket .implicit .owlClass = [⟨"a:A"⟩] ∧ declared.bucket .implicit .owlClass = [] ∧
      declared.bucket .explicit .owlClass = [⟨"a:A"⟩] := by
  decide

end Catalogue

end OwlFunctional
