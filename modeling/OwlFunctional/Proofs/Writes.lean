import OwlFunctional.Proofs.Growth
import OwlFunctional.Proofs.Preamble
import OwlFunctional.Proofs.Statements

/-! What a store is given while a document is read, and what is left of a document that fails.

The store is given each accepted statement once, in order, when the statement has been read to its
last parenthesis. A statement that fails leaves nothing behind but entities that it used.
-/

set_option autoImplicit false

namespace OwlFunctional

open Grammar

namespace Document

variable {σ : Type} [Store σ]

/-- How the reading of a document went: the header, if it was accepted; the accepted statements and
the session after them; the write that was refused, if there is one; the result, and the session at
the end. -/
inductive Course (settings : Settings) (start : Session σ) :
    Option Ontology → List (Statement × Session σ) → Session σ → List (Command × Session σ) →
    Except SyntaxError Ontology → Session σ → Prop where
  | headless {error : SyntaxError} {after : Session σ} :
      (preamble settings start).run (Session.reader settings.checks) start = (.error error, after) →
      Course settings start none [] start [] (.error error) after
  | stopped {ontology : Ontology} {accepted : List (Statement × Session σ)} {error : SyntaxError}
      {extra : List (Command × Session σ)} {middle last after : Session σ} :
      Reads settings.checks (preamble settings start) start ontology middle →
      Accepted settings.checks ⟨ontology.prefixes, limit middle⟩ middle accepted last →
      Halts settings.checks ⟨ontology.prefixes, limit middle⟩ last (.error error) after extra →
      Course settings start (some ontology) accepted last extra (.error error) after
  | closed {ontology : Ontology} {accepted : List (Statement × Session σ)}
      {result : Except SyntaxError Unit} {middle last closed after : Session σ} :
      Reads settings.checks (preamble settings start) start ontology middle →
      Accepted settings.checks ⟨ontology.prefixes, limit middle⟩ middle accepted last →
      Reads settings.checks (statement? ⟨ontology.prefixes, limit middle⟩) last none closed →
      ending.run (Session.reader settings.checks) closed = (result, after) →
      Course settings start (some ontology) accepted last [] (result.map fun _ => ontology) after

theorem statements_run (ontology : Ontology) (middle : Session σ) (checks : Checks) :
    (statements ontology middle).run (Session.writer checks) middle =
      match (body ⟨ontology.prefixes, limit middle⟩ (limit middle)).run
        (Session.writer checks) middle with
      | (.ok _, closed) => ending.run (Session.reader checks) closed
      | (.error error, after) => (.error error, after) := by
  change (body _ _ >>= fun _ => Writing.ofReading ending).run _ _ = _
  rw [Program.run_bind]
  split
  · rw [Writing.run_ofReading]
    simp [*]
  · simp [*]

theorem writesOf_statements (ontology : Ontology) (middle : Session σ) (checks : Checks) :
    writesOf ((statements ontology middle).requests (Session.writer checks) middle) =
      writesOf ((body ⟨ontology.prefixes, limit middle⟩ (limit middle)).requests
        (Session.writer checks) middle) := by
  change writesOf ((body _ _ >>= fun _ => Writing.ofReading ending).requests _ _) = _
  rw [Program.requests_bind, writesOf_append]
  split
  · rw [Writing.writesOf_ofReading, List.append_nil]
  · exact List.append_nil _

/-- The header, the result and the session at the end of a document, before a fault is told. -/
def perform (settings : Settings) (session : Session σ) :
    Option Ontology × Except SyntaxError Ontology × Session σ :=
  let session := prepare settings session
  match (preamble settings session).run (Session.reader settings.checks) session with
  | (.error error, after) => (none, .error error, after)
  | (.ok ontology, middle) =>
    let (result, after) :=
      (statements ontology middle).run (Session.writer settings.checks) middle
    (some ontology, result.map fun _ => ontology, after)

theorem readInto_eq_conclude (settings : Settings) (session : Session σ) :
    readInto settings session = conclude (perform settings session).1
      (perform settings session).2.1 (perform settings session).2.2 := by
  unfold readInto perform
  dsimp only
  generalize prepare settings session = start
  rcases (preamble settings start).run (Session.reader settings.checks) start with
    ⟨error | ontology, middle⟩
  · rfl
  · rfl

theorem perform_of_preamble {settings : Settings} {session middle : Session σ}
    {ontology : Ontology}
    (read : Reads settings.checks (preamble settings (prepare settings session))
      (prepare settings session) ontology middle) :
    perform settings session =
      (some ontology,
        ((statements ontology middle).run (Session.writer settings.checks) middle).1.map
          fun _ => ontology,
        ((statements ontology middle).run (Session.writer settings.checks) middle).2) := by
  unfold perform
  dsimp only
  rw [read]

theorem perform_cases (settings : Settings) (session : Session σ) :
    (∃ error after,
      (preamble settings (prepare settings session)).run (Session.reader settings.checks)
        (prepare settings session) = (.error error, after) ∧
      perform settings session = (none, .error error, after)) ∨
    ∃ ontology middle,
      Reads settings.checks (preamble settings (prepare settings session))
        (prepare settings session) ontology middle ∧
      perform settings session =
        (some ontology,
          ((statements ontology middle).run (Session.writer settings.checks) middle).1.map
            fun _ => ontology,
          ((statements ontology middle).run (Session.writer settings.checks) middle).2) := by
  rcases read : (preamble settings (prepare settings session)).run
    (Session.reader settings.checks) (prepare settings session) with ⟨error | ontology, middle⟩
  · refine .inl ⟨error, middle, rfl, ?_⟩
    unfold perform
    dsimp only
    rw [read]
  · exact .inr ⟨ontology, middle, read, perform_of_preamble read⟩

theorem perform_failed {settings : Settings} {session : Session σ} {error : SyntaxError}
    (failed : (perform settings session).2.1 = .error error) :
    (∃ after, (preamble settings (prepare settings session)).run (Session.reader settings.checks)
      (prepare settings session) = (.error error, after)) ∨
    ∃ ontology middle after,
      Reads settings.checks (preamble settings (prepare settings session))
        (prepare settings session) ontology middle ∧
      (statements ontology middle).run (Session.writer settings.checks) middle =
        (.error error, after) := by
  rcases perform_cases settings session with
    ⟨found, after, read, ends⟩ | ⟨ontology, middle, read, ends⟩
  · rw [ends] at failed
    obtain rfl := Except.error.inj failed
    exact .inl ⟨after, read⟩
  · rw [ends] at failed
    rcases ran : (statements ontology middle).run (Session.writer settings.checks) middle with
      ⟨found | _, after⟩
    · rw [ran] at failed
      obtain rfl := Except.error.inj failed
      exact .inr ⟨ontology, middle, after, read, ran⟩
    · rw [ran] at failed
      simp [Except.map] at failed

theorem exists_course (settings : Settings) (session : Session σ) :
    ∃ header accepted last extra result after,
      perform settings session = (header, result, after) ∧
      Course settings (prepare settings session) header accepted last extra result after ∧
      writesOf (requests settings session) = commandsOf accepted ++ extra := by
  have queries (requested : List (Query × Session σ)) :
      writesOf (requested.map fun request => (.query request.1, request.2)) = [] := by
    simp [writesOf, List.filter_map, Function.comp_def, Command.isWrite]
  unfold perform requests
  simp only [writesOf_append, queries, List.nil_append]
  generalize prepare settings session = start
  rcases read : (preamble settings start).run (Session.reader settings.checks) start with
    ⟨error | ontology, middle⟩
  · exact ⟨none, [], start, [], .error error, middle, rfl, .headless read, rfl⟩
  · simp only [statements_run, writesOf_statements]
    obtain ⟨accepted, last, result, after, extra, chain, halts, ran, writes⟩ :=
      body_run settings.checks ⟨ontology.prefixes, limit middle⟩
        (Nat.lt_succ_self middle.stream.ahead.length)
    have ran : (body ⟨ontology.prefixes, limit middle⟩ (limit middle)).run
        (Session.writer settings.checks) middle = (result, after) := ran
    rw [ran]
    cases result with
    | error error =>
      exact ⟨some ontology, accepted, last, extra, .error error, after, rfl,
        .stopped read chain halts, writes⟩
    | ok done =>
      cases halts with
      | closed closed =>
        rcases finish : ending.run (Session.reader settings.checks) after with ⟨final, rest⟩
        exact ⟨some ontology, accepted, last, [], final.map fun _ => ontology, rest,
          by simp only [finish], .closed read chain closed finish, writes⟩

theorem Course.grows {settings : Settings} {start last after : Session Catalogue}
    {header : Option Ontology} {accepted : List (Statement × Session Catalogue)}
    {extra : List (Command × Session Catalogue)} {result : Except SyntaxError Ontology}
    (course : Course settings start header accepted last extra result after) :
    last.store.Grows after.store := by
  cases course with
  | headless failed => exact Program.run_grows failed
  | stopped read chain halts =>
    cases halts with
    | broken failed => exact Program.run_grows failed
    | @refused declaration annotations position between store read refused =>
      have unchanged : store = between.store := by
        change between.store.declare declaration annotations = _ at refused
        unfold Catalogue.declare at refused
        split at refused
        · exact (Prod.mk.inj refused).2.symm
        · simp at refused
      rw [unchanged]
      exact read.grows
  | closed read chain closed finish => exact closed.grows.trans (Program.run_grows finish)

theorem Accepted.closed {checks : Checks} {scope : Scope} {session last : Session σ}
    {accepted : List (Statement × Session σ)} (chain : Accepted checks scope session accepted last) :
    ∀ call ∈ commandsOf accepted, call.2.stream.Closed := by
  induction chain with
  | none => simp [commandsOf]
  | more read wrote others ih =>
    intro call member
    rcases List.mem_cons.mp member with rfl | member
    · exact read.statement_enclosed.1
    · exact ih call member

theorem Course.writes_closed {settings : Settings} {start last after : Session σ}
    {header : Option Ontology} {accepted : List (Statement × Session σ)}
    {extra : List (Command × Session σ)} {result : Except SyntaxError Ontology}
    (course : Course settings start header accepted last extra result after) :
    ∀ call ∈ commandsOf accepted ++ extra, call.2.stream.Closed := by
  cases course with
  | headless failed => simp [commandsOf]
  | stopped read chain halts =>
    intro call member
    rcases List.mem_append.mp member with member | member
    · exact Accepted.closed chain call member
    · cases halts with
      | broken failed => simp at member
      | refused read refused =>
        obtain rfl := List.mem_singleton.mp member
        exact read.statement_enclosed.1
  | closed read chain closed finish =>
    rw [List.append_nil]
    exact Accepted.closed chain

theorem Course.header_iff {settings : Settings} {start last after : Session σ}
    {header : Option Ontology} {accepted : List (Statement × Session σ)}
    {extra : List (Command × Session σ)} {result : Except SyntaxError Ontology}
    (course : Course settings start header accepted last extra result after) (ontology : Ontology) :
    header = some ontology ↔ ∃ bindings bound middle,
      Binds settings.checks [] start bindings bound ∧
      Heads settings.checks (settings.prefixes.override bindings) bound ontology middle := by
  -- Where an ontology was read the header names it, as no other one can be read there.
  have whole {middle : Session σ} :
      Reads settings.checks (preamble settings start) start ontology middle ↔ _ :=
    preamble_iff (Nat.lt_succ_self start.stream.ahead.length)
  have accepted_iff {found : Ontology} {middle : Session σ}
      (read : Reads settings.checks (preamble settings start) start found middle) :
      some found = some ontology ↔ ∃ middle,
        Reads settings.checks (preamble settings start) start ontology middle := by
    constructor
    · intro same
      exact ⟨middle, Option.some.inj same ▸ read⟩
    · rintro ⟨other, again⟩
      have same := (Prod.mk.inj (read.symm.trans again)).1
      rw [Except.ok.inj same]
  have parts : (∃ middle, Reads settings.checks (preamble settings start) start ontology middle) ↔
      ∃ bindings bound middle, Binds settings.checks [] start bindings bound ∧
        Heads settings.checks (settings.prefixes.override bindings) bound ontology middle := by
    simp only [whole]
    exact ⟨fun ⟨middle, bindings, bound, both⟩ => ⟨bindings, bound, middle, both⟩,
      fun ⟨bindings, bound, middle, both⟩ => ⟨middle, bindings, bound, both⟩⟩
  rw [← parts]
  cases course with
  | headless failed =>
    constructor
    · simp
    · rintro ⟨middle, read⟩
      have same := (Prod.mk.inj (failed.symm.trans read)).1
      simp at same
  | stopped read => exact accepted_iff read
  | closed read => exact accepted_iff read

/-- A course accounts for a document: its writes are the accepted statements, in order and each
when it had been read, with at most a refused declaration after them, and its end is the outcome. -/
structure Accounts (settings : Settings) (session : Session σ) (header : Option Ontology)
    (accepted : List (Statement × Session σ)) (last : Session σ)
    (extra : List (Command × Session σ)) (result : Except SyntaxError Ontology)
    (after : Session σ) : Prop where
  course : Course settings (prepare settings session) header accepted last extra result after
  writes : writesOf (requests settings session) = commandsOf accepted ++ extra
  closed : ∀ call ∈ writesOf (requests settings session), call.2.stream.Closed
  performed : perform settings session = (header, result, after)

theorem Accounts.outcome {settings : Settings} {session last after : Session σ}
    {header : Option Ontology} {accepted : List (Statement × Session σ)}
    {extra : List (Command × Session σ)} {result : Except SyntaxError Ontology}
    (accounts : Accounts settings session header accepted last extra result after) :
    readInto settings session = conclude header result after := by
  rw [readInto_eq_conclude, accounts.performed]

theorem exists_accounts (settings : Settings) (session : Session σ) :
    ∃ header accepted last extra result after,
      Accounts settings session header accepted last extra result after := by
  obtain ⟨header, accepted, last, extra, result, after, performed, course, writes⟩ :=
    exists_course settings session
  exact ⟨header, accepted, last, extra, result, after, course, writes,
    by rw [writes]; exact course.writes_closed, performed⟩

/-- Statements are atomic, for any store: exactly the accepted ones are written. The header that a
failed document still gives is the one that was accepted, with the abbreviations of the document
over those bound before. In a catalogue a failed statement leaves nothing but uses of entities. -/
theorem readInto_atomic (settings : Settings) :
    (∀ {σ : Type} [Store σ] (session : Session σ),
      (∃ header accepted last extra result after,
        Accounts settings session header accepted last extra result after) ∧
      ∀ ontology, (readInto settings session).ontology = some ontology ↔
        ∃ bindings bound middle,
          Binds settings.checks [] (prepare settings session) bindings bound ∧
          Heads settings.checks (settings.prefixes.override bindings) bound ontology middle ∧
          ontology.prefixes = settings.prefixes.override bindings) ∧
    ∀ session : Session Catalogue, ∃ header accepted last extra result after,
      Accounts settings session header accepted last extra result after ∧
      last.store.Grows (readInto settings session).session.store := by
  refine ⟨fun session => ⟨exists_accounts settings session, fun ontology => ?_⟩, fun session => ?_⟩
  · obtain ⟨header, accepted, last, extra, result, after, accounts⟩ :=
      exists_accounts settings session
    have same : (readInto settings session).ontology = header := by
      rw [accounts.outcome]
      rfl
    rw [same, accounts.course.header_iff]
    constructor
    · rintro ⟨bindings, bound, middle, binds, heads⟩
      exact ⟨bindings, bound, middle, binds, heads, heads.prefixes_eq⟩
    · rintro ⟨bindings, bound, middle, binds, heads, -⟩
      exact ⟨bindings, bound, middle, binds, heads⟩
  · obtain ⟨header, accepted, last, extra, result, after, accounts⟩ :=
      exists_accounts settings session
    refine ⟨header, accepted, last, extra, result, after, accounts, ?_⟩
    rw [accounts.outcome]
    exact accounts.course.grows

end Document

end OwlFunctional
