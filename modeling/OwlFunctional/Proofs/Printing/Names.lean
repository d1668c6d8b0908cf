import OwlFunctional.Proofs.Acceptance.Document
import OwlFunctional.Proofs.Printing.Document
import OwlFunctional.Proofs.Printing.Reference
import OwlFunctional.Proofs.Uses

/-! All names in a catalogue that a document was read into can be written.

An entity is listed because it was declared, or because a statement referred to it. Which entities a
reading lists is seen from a second run of it, in which all that the statement refers to is listed
and nothing else can be found.
-/

set_option autoImplicit false

namespace OwlFunctional

open Spelling

def Catalogue.Writable (catalogue : Catalogue) : Prop :=
  ∀ declaration, catalogue.Lists declaration → declaration.iri.Writable

section

variable {checks : Checks} {session after : Session Catalogue} {input : List Lexeme}

/-- A reading that succeeds with nothing but the listed entities lists no others. -/
theorem Reads.writable_of_again {α : Type} {others : Checks} {reading : Reading α} {value found : α}
    {references : List Declaration} {final : Session Catalogue}
    (read : Reads checks reading session value after)
    (again : Reads others reading ⟨session.stream, session.store.supplied references⟩ found final)
    (writable : session.store.Writable) (written : WritableReferences references) :
    after.store.Writable := by
  intro declaration listed
  rcases read.lists_of_again again listed with before | member
  · exact writable declaration before
  · exact written declaration member

theorem Reads.statement_writable {scope : Scope} {statement : Statement}
    (read : Reads checks (Grammar.statement? scope) session (some statement) after)
    (here : session.At input) (formed : AllFormed input) (prefixes : scope.prefixes.Writable)
    (enough : session.stream.ahead.length < scope.limit) (writable : session.store.Writable) :
    after.store.Writable := by
  obtain ⟨spelled, held⟩ := Recognition.statement?_spelled read here
  obtain ⟨found, -, final, again, -⟩ := Acceptance.readsUpTo_statement? spelled
    (supplied_at here _) (here.size_lt enough) fun declaration member =>
      ⟨(held declaration member).1,
      .inr ((session.store.lists_supplied _ declaration).mpr (.inr member))⟩
  exact read.writable_of_again again writable (spelled.writable formed prefixes).1

theorem Catalogue.Writable.write {catalogue : Catalogue} {statement : Statement}
    (writable : catalogue.Writable)
    (named : ∀ declared notes position, statement = .declaration declared notes position →
      declared.iri.Writable) : (catalogue.write statement).2.Writable := by
  intro declaration listed
  cases statement with
  | declaration declared notes position =>
    have listable : catalogue.Lists declaration ∨ declaration = declared := by
      simp only [Catalogue.write, Catalogue.declare] at listed
      split at listed
      · exact .inl listed
      · dsimp only at listed
        split at listed
        · exact (catalogue.lists_list_iff _ _ declaration).mp listed
        · exact (catalogue.lists_list_iff _ _ declaration).mp listed
    rcases listable with before | rfl
    · exact writable declaration before
    · exact named _ _ _ rfl
  | assertion annotated =>
    simp only [Catalogue.write, Catalogue.add] at listed
    rw [Catalogue.note_eq] at listed
    exact writable declaration listed

theorem Accepted.writable {scope : Scope} {accepted : List (Statement × Session Catalogue)}
    (chain : Accepted checks scope session accepted after) (here : session.At input)
    (formed : AllFormed input) (prefixes : scope.prefixes.Writable)
    (enough : session.stream.ahead.length < scope.limit) (writable : session.store.Writable) :
    after.store.Writable := by
  induction chain generalizing input with
  | none => exact writable
  | @more statement others session read written last first wrote chain ih =>
    obtain ⟨spelled, -⟩ := Recognition.statement?_spelled first here
    have formedLater := spelled.isLocal.formed formed
    have shorter := first.statement_enclosed.2
    have unmoved := write_unmoved wrote
    have readAt := first.atItself here
    have kept := (first.statement_writable here formed prefixes enough writable).write
      (spelled.writable formed prefixes).2
    rw [(wrote_iff.mp wrote).1] at kept
    refine ih ⟨?_, ?_⟩ formedLater ?_ kept
    · rw [unmoved]
    · rw [unmoved]
      exact readAt.noEof
    · rw [unmoved]
      omega

end

namespace Document

variable {settings : Settings} {start after : Session Catalogue} {ontology : Ontology}
  {statements : List Statement}

/-- All names that a document leaves in a catalogue can be written, if those before it could. -/
theorem Completes.writable (completes : Completes settings start ontology statements after)
    (noEof : start.stream.NoEof) (formed : AllFormed start.stream.ahead)
    (prefixes : ontology.prefixes.Writable) (writable : start.store.Writable) :
    after.store.Writable := by
  obtain ⟨read, chain, close, finish, rfl⟩ := completes
  have startAt : start.At start.stream.ahead := ⟨rfl, noEof⟩
  obtain ⟨bindings, prepared, binds, heads⟩ :=
    (preamble_iff (Nat.lt_succ_self start.stream.ahead.length)).mp read
  obtain ⟨first, bound, preparedAt⟩ := Recognition.binds_spelled binds startAt
  obtain ⟨second, headed, middleAt⟩ := Recognition.heads_spelled heads preparedAt
  obtain ⟨⟨third, stated, lastAt⟩, -, -⟩ := Recognition.accepted_spelled chain middleAt
  have closes := Recognition.statement?_spelled close lastAt
  have closedAt := close.atItself lastAt
  have ended := Recognition.ending_spelled finish closedAt
  have formedBody := (headed.parts (bound_parts bound formed).1).1
  obtain ⟨_, again, -⟩ := exists_preamble bound binds.fresh.2 headed stated closes
    (supplied_at startAt [])
  have atBody := read.writable_of_again again writable .none
  have atEnd := chain.writable middleAt formedBody prefixes (Nat.lt_succ_self _) atBody
  obtain ⟨_, again, -⟩ :=
    Acceptance.reads_closing settings.checks _ closes (supplied_at lastAt [])
  have atClose := close.writable_of_again again atEnd .none
  obtain ⟨_, again⟩ := Acceptance.reads_ending settings.checks ended (supplied_at closedAt [])
  exact finish.writable_of_again again atClose .none

end Document

end OwlFunctional
