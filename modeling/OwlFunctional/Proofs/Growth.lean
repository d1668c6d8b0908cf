import Mathlib.Logic.Basic
import OwlFunctional.Catalogue
import OwlFunctional.Proofs.Run

/-! What a reading can do to a catalogue.

A reading only looks entities up. Under the explicit policy that changes nothing. Under the
implicit policy it lists entities as used, and leaves all else as it was.
-/

set_option autoImplicit false

namespace OwlFunctional

namespace Entry

/-- The names among the entries that declarations put there. -/
def declaredIn (entries : List Entry) : List Iri :=
  (entries.filter fun entry => entry.origin == .explicit).map (·.iri)

theorem origin?_cons (entry : Entry) (entries : List Entry) (iri : Iri) :
    origin? (entry :: entries) iri =
      if entry.iri = iri then some entry.origin else origin? entries iri := by
  unfold origin?
  by_cases same : entry.iri = iri
  · simp [same]
  · rw [List.find?_cons_of_neg (by simpa using same), if_neg same]

@[simp] theorem origin?_placeBy_self (entry : Entry) (entries : List Entry) :
    origin? (placeBy key entry entries) entry.iri = some entry.origin := by
  induction entries with
  | nil => simp [placeBy, origin?]
  | cons first rest ih =>
    simp only [placeBy]
    split
    · simp [origin?_cons]
    · split
      · simp [origin?_cons]
      · next different =>
        rw [origin?_cons, if_neg fun same => different (key_eq_iff.mpr same.symm)]
        exact ih

theorem origin?_placeBy_of_ne {entry : Entry} (entries : List Entry) {iri : Iri}
    (different : entry.iri ≠ iri) :
    origin? (placeBy key entry entries) iri = origin? entries iri := by
  induction entries with
  | nil => simp [placeBy, origin?, different]
  | cons first rest ih =>
    simp only [placeBy]
    split
    · simp [origin?_cons, different]
    · split
      · next same => simp [origin?_cons, different, ← key_eq_iff.mp same]
      · simp [origin?_cons, ih]

theorem declaredIn_placeBy_implicit {entries : List Entry} {iri : Iri}
    (absent : origin? entries iri = none) :
    declaredIn (placeBy key ⟨iri, .implicit⟩ entries) = declaredIn entries := by
  induction entries with
  | nil => rfl
  | cons first rest ih =>
    rw [origin?_cons] at absent
    split at absent
    · simp at absent
    · next different =>
      have step := ih absent
      simp only [placeBy]
      split
      · simp [declaredIn]
      · split
        · next same => exact absurd (key_eq_iff.mp same).symm different
        · simp only [declaredIn, List.filter_cons] at step ⊢
          split <;> simp [step]

end Entry

namespace Catalogue

/-- The entity is listed, by a declaration or by its use. -/
def Lists (catalogue : Catalogue) (declaration : Declaration) : Prop :=
  (catalogue.origin? declaration.kind declaration.iri).isSome = true

theorem lists_iff {catalogue : Catalogue} {declaration : Declaration} :
    catalogue.Lists declaration ↔
      ∃ entry ∈ catalogue.entries.get declaration.kind, entry.iri = declaration.iri := by
  simp [Lists, origin?, Entry.origin?]

/-- A look-up finds the entity. -/
def Knows (catalogue : Catalogue) (declaration : Declaration) : Prop :=
  catalogue.policy = .implicit ∨ catalogue.Lists declaration

def declared (catalogue : Catalogue) (kind : EntityKind) : List Iri :=
  Entry.declaredIn (catalogue.entries.get kind)

/-- The second catalogue holds what the first one holds, and perhaps more entities that were
only used. -/
structure Grows (before after : Catalogue) : Prop where
  policy : after.policy = before.policy
  axioms : after.axioms = before.axioms
  annotated : after.annotated = before.annotated
  traits : after.traits = before.traits
  declared : ∀ kind, after.declared kind = before.declared kind
  lists : ∀ declaration, before.Lists declaration → after.Lists declaration
  fixed : before.policy = .explicit → after = before

theorem Grows.refl (catalogue : Catalogue) : catalogue.Grows catalogue :=
  ⟨rfl, rfl, rfl, rfl, fun _ => rfl, fun _ => id, fun _ => rfl⟩

theorem Grows.trans {first second third : Catalogue} (before : first.Grows second)
    (after : second.Grows third) : first.Grows third where
  policy := after.policy.trans before.policy
  axioms := after.axioms.trans before.axioms
  annotated := after.annotated.trans before.annotated
  traits := after.traits.trans before.traits
  declared kind := (after.declared kind).trans (before.declared kind)
  lists declaration listed := after.lists declaration (before.lists declaration listed)
  fixed explicit := (after.fixed (before.policy.trans explicit)).trans (before.fixed explicit)

theorem origin?_list_self (catalogue : Catalogue) (kind : EntityKind) (entry : Entry) :
    (catalogue.list kind entry).origin? kind entry.iri = some entry.origin := by
  simp [origin?, list]

theorem origin?_list_of_ne (catalogue : Catalogue) {kind other : EntityKind} {entry : Entry}
    {iri : Iri} (different : kind ≠ other ∨ entry.iri ≠ iri) :
    (catalogue.list kind entry).origin? other iri = catalogue.origin? other iri := by
  unfold origin? list
  by_cases same : other = kind
  · subst same
    have names : entry.iri ≠ iri := different.resolve_left (· rfl)
    simp [Entry.origin?_placeBy_of_ne _ names]
  · rw [ByKind.get_set_of_ne _ _ same]

theorem lists_list_iff (catalogue : Catalogue) (kind : EntityKind) (entry : Entry)
    (declaration : Declaration) : (catalogue.list kind entry).Lists declaration ↔
      catalogue.Lists declaration ∨ declaration = ⟨kind, entry.iri⟩ := by
  unfold Lists
  by_cases same : declaration = ⟨kind, entry.iri⟩
  · subst same
    simp [origin?_list_self]
  · have different : kind ≠ declaration.kind ∨ entry.iri ≠ declaration.iri := by
      rw [← not_and_or]
      rintro ⟨rfl, names⟩
      exact same (by rw [names])
    rw [origin?_list_of_ne _ different, or_iff_left same]

theorem lists_list (catalogue : Catalogue) (kind : EntityKind) (entry : Entry)
    {declaration : Declaration} (listed : catalogue.Lists declaration) :
    (catalogue.list kind entry).Lists declaration :=
  (lists_list_iff catalogue kind entry declaration).mpr (.inl listed)

theorem declared_list_implicit {catalogue : Catalogue} {kind : EntityKind} {iri : Iri}
    (absent : catalogue.origin? kind iri = none) (other : EntityKind) :
    (catalogue.list kind ⟨iri, .implicit⟩).declared other = catalogue.declared other := by
  unfold declared list
  by_cases same : other = kind
  · subst same
    simp [Entry.declaredIn_placeBy_implicit absent]
  · rw [ByKind.get_set_of_ne _ _ same]

theorem grows_lookup (kind : EntityKind) (iri : Iri) (catalogue : Catalogue) :
    catalogue.Grows (catalogue.lookup kind iri).2 := by
  unfold lookup
  split
  · exact .refl catalogue
  · exact .refl catalogue
  · next absent implicit =>
    exact ⟨rfl, rfl, rfl, rfl, declared_list_implicit absent,
      fun _ listed => lists_list catalogue kind _ listed,
      fun explicit => by simp [implicit] at explicit⟩

theorem grows_find {kind : EntityKind} {iri : Iri} {catalogue after : Catalogue}
    {found : Option (Entity kind)} (answered : Store.find kind iri catalogue = (found, after)) :
    catalogue.Grows after := by
  have grown := catalogue.grows_lookup kind iri
  have same : (Store.find kind iri catalogue).2 = (catalogue.lookup kind iri).2 := rfl
  rwa [← same, answered] at grown

theorem find_some {kind : EntityKind} {iri : Iri} {catalogue after : Catalogue}
    {entity : Entity kind} (found : Store.find kind iri catalogue = (some entity, after)) :
    entity = ⟨iri⟩ ∧ after.Lists ⟨kind, iri⟩ := by
  simp only [Store.find] at found
  change ((catalogue.lookup kind iri).1.bind _, (catalogue.lookup kind iri).2) = _ at found
  unfold lookup at found
  split at found
  · next origin listed =>
    simp only [Option.bind_some, Declaration.entity?, Prod.mk.injEq] at found
    obtain ⟨same, rfl⟩ := found
    exact ⟨by simpa using same.symm, by simp [Lists, listed]⟩
  · simp at found
  · simp only [Option.bind_some, Declaration.entity?, Prod.mk.injEq] at found
    obtain ⟨same, rfl⟩ := found
    exact ⟨by simpa using same.symm, by simp [Lists, origin?_list_self catalogue kind ⟨iri, _⟩]⟩

theorem find_of_knows {kind : EntityKind} {iri : Iri} {catalogue : Catalogue}
    (known : catalogue.Knows ⟨kind, iri⟩) :
    ∃ after, Store.find kind iri catalogue = (some ⟨iri⟩, after) := by
  refine ⟨(catalogue.lookup kind iri).2, ?_⟩
  simp only [Store.find]
  change ((catalogue.lookup kind iri).1.bind _, (catalogue.lookup kind iri).2) = _
  unfold lookup
  split
  · simp [Declaration.entity?]
  · next absent explicit => simp [Knows, Lists, absent, explicit] at known
  · simp [Declaration.entity?]

theorem Grows.knows_iff {before after : Catalogue} (grows : before.Grows after)
    (declaration : Declaration) : after.Knows declaration ↔ before.Knows declaration := by
  cases policy : before.policy with
  | explicit => rw [grows.fixed policy]
  | implicit => simp [Knows, grows.policy, policy]

theorem Grows.knows_of_lists {before after : Catalogue} (grows : before.Grows after)
    {declaration : Declaration} (listed : after.Lists declaration) :
    before.Knows declaration := (grows.knows_iff declaration).mp (.inr listed)

end Catalogue

/-- Each answer to a query lets the catalogue grow, so each run of a reading does, also one that
fails. -/
theorem Session.answer_grows (checks : Checks) (query : Query) (session : Session Catalogue) :
    session.store.Grows (answer checks query session).2.store := by
  cases query with
  | find kind iri =>
    simp only [answer]
    split
    · next found => exact Catalogue.grows_find found
    · next found => exact Catalogue.grows_find found
  | _ => exact .refl _

theorem Program.run_grows {α : Type} {checks : Checks} {reading : Reading α}
    {result : Except SyntaxError α} {session after : Session Catalogue}
    (ran : reading.run (Session.reader checks) session = (result, after)) :
    session.store.Grows after.store := by
  have grown : session.store.Grows (reading.run (Session.reader checks) session).2.store :=
    Program.run_relates (fun first second => first.store.Grows second.store)
      (fun _ => .refl _) .trans (Session.answer_grows checks) reading session
  rw [ran] at grown
  exact grown

theorem Reads.grows {α : Type} {checks : Checks} {reading : Reading α} {value : α}
    {session after : Session Catalogue} (read : Reads checks reading session value after) :
    session.store.Grows after.store := Program.run_grows read

end OwlFunctional
