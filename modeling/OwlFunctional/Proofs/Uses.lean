import OwlFunctional.Proofs.Cursor
import OwlFunctional.Proofs.References

/-! What a reading uses, seen from another run of it.

Two runs of a reading from the same place get the same answers, as long as both succeed. If one of
them had to find all entities declared, then the other one has listed no others.
-/

set_option autoImplicit false

namespace OwlFunctional

namespace Catalogue

theorem find_explicit {kind : EntityKind} {iri : Iri} {catalogue after : Catalogue}
    {entity : Entity kind} (found : Store.find kind iri catalogue = (some entity, after))
    (explicit : catalogue.policy = .explicit) :
    entity = ⟨iri⟩ ∧ catalogue.Lists ⟨kind, iri⟩ ∧ after = catalogue := by
  obtain ⟨same, listed⟩ := find_some found
  have unchanged : after = catalogue := by
    have grown := (grows_lookup kind iri catalogue).fixed explicit
    have result : (Store.find kind iri catalogue).2 = (catalogue.lookup kind iri).2 := rfl
    rw [← grown, ← result, found]
  exact ⟨same, unchanged ▸ listed, unchanged⟩

theorem lists_of_find {kind : EntityKind} {iri : Iri} {catalogue after : Catalogue}
    {found : Option (Entity kind)} (answered : Store.find kind iri catalogue = (found, after))
    {declaration : Declaration} (listed : after.Lists declaration) :
    catalogue.Lists declaration ∨ declaration = ⟨kind, iri⟩ := by
  have result : after = (catalogue.lookup kind iri).2 := (congrArg Prod.snd answered).symm
  rw [result] at listed
  unfold lookup at listed
  split at listed
  · exact .inl listed
  · exact .inl listed
  · exact (lists_list_iff catalogue kind _ declaration).mp listed

/-- The catalogue with the explicit policy and with further entities. -/
def supplied (catalogue : Catalogue) : List Declaration → Catalogue
  | [] => { catalogue with policy := .explicit }
  | declaration :: others =>
    (catalogue.supplied others).list declaration.kind ⟨declaration.iri, .implicit⟩

theorem supplied_policy (catalogue : Catalogue) (references : List Declaration) :
    (catalogue.supplied references).policy = .explicit := by
  induction references with
  | nil => rfl
  | cons declaration others ih => exact ih

theorem lists_supplied (catalogue : Catalogue) (references : List Declaration)
    (declaration : Declaration) : (catalogue.supplied references).Lists declaration ↔
      catalogue.Lists declaration ∨ declaration ∈ references := by
  induction references with
  | nil => simp [supplied, Lists, origin?]
  | cons first others ih =>
    rw [supplied, lists_list_iff, ih, List.mem_cons, or_assoc, or_comm (a := declaration ∈ others)]

end Catalogue

theorem Reads.ask_iff {σ α : Type} [Store σ] {checks : Checks} {query : Query}
    {refused : Signature.Refusal query → SyntaxError} {next : Signature.Reply query → Reading α}
    {session after : Session σ} {value : α} :
    Reads checks (.ask query refused next) session value after ↔
      ∃ reply between, Session.answer checks query session = (.ok reply, between) ∧
        Reads checks (next reply) between value after := by
  unfold Reads
  simp only [Program.run, Session.reader]
  rcases Session.answer checks query session with ⟨error | reply, between⟩
  · simp
  · simp [and_assoc]

theorem Session.answer_same {checks others : Checks} {query : Query}
    {reply found : Signature.Reply query} {session after other final : Session Catalogue}
    (answered : answer checks query session = (.ok reply, after))
    (again : answer others query other = (.ok found, final))
    (same : other.stream = session.stream) : reply = found ∧ final.stream = after.stream := by
  obtain ⟨stream, store⟩ := session
  obtain ⟨_, otherStore⟩ := other
  subst same
  cases query with
  | find kind iri =>
    simp only [answer] at answered again
    rcases looked : Store.find kind iri store with ⟨none | entity, grown⟩
    · simp [looked] at answered
    · rcases lookedAgain : Store.find kind iri otherStore with ⟨none | listed, later⟩
      · simp [lookedAgain] at again
      · simp only [looked] at answered
        simp only [lookedAgain] at again
        cases answered
        cases again
        obtain ⟨rfl, -⟩ := Catalogue.find_some looked
        obtain ⟨rfl, -⟩ := Catalogue.find_some lookedAgain
        exact ⟨rfl, rfl⟩
  | checkIri text | checkTag text =>
    -- All that a check which is passed tells is that it is passed.
    obtain ⟨-, rfl⟩ := Prod.mk.inj answered
    obtain ⟨-, rfl⟩ := Prod.mk.inj again
    exact ⟨rfl, rfl⟩
  | token | peek | unscan | here | subtag | report =>
    simp only [answer] at answered again
    cases answered
    cases again
    exact ⟨rfl, rfl⟩

/-- Two runs of a reading from the same place give the same, if both succeed, whatever the
catalogues and the checks are. -/
theorem Reads.agree {α : Type} {checks others : Checks} {reading : Reading α} {value found : α}
    {session after other final : Session Catalogue}
    (read : Reads checks reading session value after)
    (again : Reads others reading other found final) (same : other.stream = session.stream) :
    value = found ∧ final.stream = after.stream := by
  induction reading generalizing session other with
  | done result =>
    obtain ⟨rfl, rfl⟩ := pure_iff.mp read
    obtain ⟨rfl, rfl⟩ := pure_iff.mp again
    exact ⟨rfl, same⟩
  | fail error => simp at read
  | ask query refused next ih =>
    obtain ⟨reply, between, answered, read⟩ := ask_iff.mp read
    obtain ⟨_, otherBetween, answeredAgain, again⟩ := ask_iff.mp again
    obtain ⟨rfl, there⟩ := Session.answer_same answered answeredAgain same
    exact ih reply read again there

theorem Session.answer_uses {checks others : Checks} {query : Query}
    {reply found : Signature.Reply query} {session after other final : Session Catalogue}
    (answered : answer checks query session = (.ok reply, after))
    (again : answer others query other = (.ok found, final))
    (explicit : other.store.policy = .explicit)
    (known : ∀ declaration, session.store.Lists declaration → other.store.Lists declaration) :
    final.store = other.store ∧
      ∀ declaration, after.store.Lists declaration → other.store.Lists declaration := by
  cases query with
  | find kind iri =>
    simp only [answer] at answered again
    rcases looked : Store.find kind iri session.store with ⟨none | entity, grown⟩
    · simp [looked] at answered
    · rcases lookedAgain : Store.find kind iri other.store with ⟨none | listed, unchanged⟩
      · simp [lookedAgain] at again
      · simp only [looked] at answered
        simp only [lookedAgain] at again
        cases answered
        cases again
        obtain ⟨-, isListed, same⟩ := Catalogue.find_explicit lookedAgain explicit
        refine ⟨same, fun declaration member => ?_⟩
        rcases Catalogue.lists_of_find looked member with before | rfl
        · exact known declaration before
        · exact isListed
  | token | peek | unscan | here | subtag | report | checkIri | checkTag =>
    obtain ⟨-, rfl⟩ := Prod.mk.inj answered
    obtain ⟨-, rfl⟩ := Prod.mk.inj again
    exact ⟨rfl, known⟩

theorem Reads.uses {α : Type} {checks others : Checks} {reading : Reading α} {value found : α}
    {session after other final : Session Catalogue}
    (read : Reads checks reading session value after)
    (again : Reads others reading other found final) (same : other.stream = session.stream)
    (explicit : other.store.policy = .explicit)
    (known : ∀ declaration, session.store.Lists declaration → other.store.Lists declaration) :
    ∀ declaration, after.store.Lists declaration → other.store.Lists declaration := by
  induction reading generalizing session other with
  | done result =>
    obtain ⟨-, rfl⟩ := Reads.pure_iff.mp read
    exact known
  | fail error => simp at read
  | ask query refused next ih =>
    obtain ⟨reply, between, answered, read⟩ := Reads.ask_iff.mp read
    obtain ⟨_, otherBetween, answeredAgain, again⟩ := Reads.ask_iff.mp again
    obtain ⟨rfl, there⟩ := Session.answer_same answered answeredAgain same
    obtain ⟨unchanged, listed⟩ := Session.answer_uses answered answeredAgain explicit known
    rw [← unchanged] at explicit listed ⊢
    exact ih reply read again there explicit listed

theorem supplied_at {session : Session Catalogue} {input : List Lexeme} (here : session.At input)
    (references : List Declaration) :
    (⟨session.stream, session.store.supplied references⟩ : Session Catalogue).At input :=
  ⟨here.alike, here.noEof⟩

/-- A reading that succeeds with nothing but the listed entities and the given ones lists no
others. -/
theorem Reads.lists_of_again {α : Type} {checks others : Checks} {reading : Reading α}
    {value found : α} {references : List Declaration} {session after final : Session Catalogue}
    (read : Reads checks reading session value after)
    (again : Reads others reading ⟨session.stream, session.store.supplied references⟩ found final)
    {declaration : Declaration} (listed : after.store.Lists declaration) :
    session.store.Lists declaration ∨ declaration ∈ references := by
  have uses := read.uses again rfl (session.store.supplied_policy references)
    fun declaration listed => (session.store.lists_supplied references declaration).mpr (.inl listed)
  exact (session.store.lists_supplied references declaration).mp (uses declaration listed)

end OwlFunctional
