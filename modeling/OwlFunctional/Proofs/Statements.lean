import OwlFunctional.Proofs.Progress
import OwlFunctional.Proofs.Requests

/-! The statements of a body, one after the other, for any store.

A body falls into the statements that were accepted and what brought it to its end: the closing
parenthesis, a statement that could not be read, or a declaration that the store refused. Each
statement was written when the whole of it had been read.
-/

set_option autoImplicit false

namespace OwlFunctional

def Statement.command : Statement → Command
  | .declaration declared annotations _ => .declare declared annotations
  | .assertion annotated => .add annotated

def Stream.Closed (stream : Stream) : Prop :=
  ∃ literal before, stream.lastStep = .read ⟨.closeParen, literal⟩ before

open Grammar

variable {σ α : Type} [Store σ] {checks : Checks} {scope : Scope} {session after : Session σ}

namespace Reads

theorem enclosed_closed {keyword : Keyword} {inside : Reading α} {value : α}
    (read : Reads checks (enclosed keyword inside) session value after) : after.stream.Closed := by
  obtain ⟨named, opened, inner, word, paren, core, close⟩ := enclosed_iff.mp read
  obtain ⟨scanned, scan, kind⟩ := expect_iff.mp close
  obtain ⟨rfl, rfl⟩ := token_iff.mp scan
  obtain ⟨before, last⟩ := inner.stream.token_lastStep
  rw [Scanned.token, Stream.token_lexeme] at kind
  exact ⟨(firstLexeme inner.stream.ahead).literal, before, by rw [last, ← kind]⟩

theorem statement_enclosed {statement : Statement}
    (read : Reads checks (statement? scope) session (some statement) after) :
    after.stream.Closed ∧ after.stream.ahead.length < session.stream.ahead.length := by
  obtain ⟨next, between, scan, read⟩ := bind_iff.mp read
  split at read
  · simp at read
  · obtain ⟨_, back, unscan, read⟩ := bind_iff.mp read
    have before := scan.unscan_length_le unscan
    split at read
    · obtain ⟨found, core, same⟩ := map_iff.mp read
      exact ⟨core.enclosed_closed, Nat.lt_of_lt_of_le core.enclosed_shorter before⟩
    · obtain ⟨found, core, same⟩ := map_iff.mp read
      unfold assertion at core
      split at core
      · split at core
        · obtain ⟨⟨notes, counted⟩, ended, enclosed, core⟩ := bind_iff.mp core
          dsimp only at core
          split at core
          · obtain ⟨-, rfl⟩ := pure_iff.mp core
            exact ⟨enclosed.enclosed_closed, Nat.lt_of_lt_of_le enclosed.enclosed_shorter before⟩
          · simp at core
        · simp at core
      · simp at core

end Reads

/-- Statements that are read in full and then accepted by the store, each with the session in
which it was handed over. -/
inductive Accepted (checks : Checks) (scope : Scope) :
    Session σ → List (Statement × Session σ) → Session σ → Prop where
  | none {session : Session σ} : Accepted checks scope session [] session
  | more {statement : Statement} {others : List (Statement × Session σ)}
      {session read written last : Session σ} :
      Reads checks (statement? scope) session (some statement) read →
      (write statement).run (Session.writer checks) read = (.ok (), written) →
      Accepted checks scope written others last →
      Accepted checks scope session ((statement, read) :: others) last

/-- What brings a body to its end after the accepted statements: the result, the session left
behind, and the write that was refused, if there is one. -/
inductive Halts (checks : Checks) (scope : Scope) (session : Session σ) :
    Except SyntaxError Unit → Session σ → List (Command × Session σ) → Prop where
  | closed {after : Session σ} : Reads checks (statement? scope) session none after →
      Halts checks scope session (.ok ()) after []
  | broken {error : SyntaxError} {after : Session σ} :
      (statement? scope).run (Session.reader checks) session = (.error error, after) →
      Halts checks scope session (.error error) after []
  | refused {declaration : Declaration} {annotations : List Annotation} {position : Position}
      {read : Session σ} {store : σ} :
      Reads checks (statement? scope) session
        (some (.declaration declaration annotations position)) read →
      Store.declare declaration annotations read.store = (false, store) →
      Halts checks scope session (.error (.found position (.declaredTwice declaration)))
        { read with store := store } [(.declare declaration annotations, read)]

def commandsOf (accepted : List (Statement × Session σ)) : List (Command × Session σ) :=
  accepted.map fun entry => (entry.1.command, entry.2)

theorem requests_write (statement : Statement) (session : Session σ) :
    (write statement).requests (Session.writer checks) session = [(statement.command, session)] := by
  cases statement with
  | declaration declaration annotations position =>
    simp only [write, Writing.declare, Program.requests]
    split <;> rfl
  | assertion annotated => rfl

theorem run_write (statement : Statement) (session : Session σ) :
    (∃ after, (write statement).run (Session.writer checks) session = (.ok (), after) ∧
      after.stream = session.stream) ∨
    ∃ declaration annotations position store,
      statement = .declaration declaration annotations position ∧
      Store.declare declaration annotations session.store = (false, store) ∧
      (write statement).run (Session.writer checks) session =
        (.error (.found position (.declaredTwice declaration)), { session with store := store }) := by
  cases statement with
  | declaration declaration annotations position =>
    simp only [write, Writing.declare, Program.run, Session.writer]
    rcases answered : Store.declare declaration annotations session.store with ⟨_ | _, store⟩
    · exact .inr ⟨_, _, _, store, rfl, answered, rfl⟩
    · exact .inl ⟨_, rfl, rfl⟩
  | assertion annotated => exact .inl ⟨_, rfl, rfl⟩

theorem write_unmoved {statement : Statement}
    (wrote : (write statement).run (Session.writer checks) session = (.ok (), after)) :
    after.stream = session.stream := by
  rcases @run_write _ _ checks statement session with ⟨_, again, same⟩ | ⟨_, _, _, _, _, _, again⟩
  · rw [wrote] at again
    rw [(Prod.mk.inj again).2, same]
  · simp [wrote] at again

def bodyAfter (scope : Scope) (limit : Nat) : Option Statement → Writing Unit
  | none => pure ()
  | some statement => do
    write statement
    body scope limit

theorem body_succ (scope : Scope) (limit : Nat) :
    body scope (limit + 1) = Writing.ofReading (statement? scope) >>= bodyAfter scope limit := by
  refine congrArg (Writing.ofReading (statement? scope) >>= ·) (funext fun found => ?_)
  cases found <;> rfl

/-- Every body falls into its accepted statements and what ends it. -/
theorem body_run (checks : Checks) (scope : Scope) {limit : Nat}
    (enough : session.stream.ahead.length < limit) :
    ∃ accepted last result after extra, Accepted checks scope session accepted last ∧
      Halts checks scope last result after extra ∧
      (body scope limit).run (Session.writer checks) session = (result, after) ∧
      writesOf ((body scope limit).requests (Session.writer checks) session) =
        commandsOf accepted ++ extra := by
  induction limit generalizing session with
  | zero => omega
  | succ limit ih =>
    rw [body_succ, Program.run_bind, Program.requests_bind, writesOf_append,
      Writing.writesOf_ofReading, Writing.run_ofReading, List.nil_append]
    rcases read : (statement? scope).run (Session.reader checks) session with
      ⟨error | _ | statement, middle⟩
    · exact ⟨[], session, .error error, middle, [], .none, .broken read, rfl, rfl⟩
    · exact ⟨[], session, .ok (), middle, [], .none, .closed read, rfl, rfl⟩
    · simp only [bodyAfter]
      rw [Program.run_bind, Program.requests_bind, requests_write, writesOf_append]
      have isWrite : writesOf [(statement.command, middle)] = [(statement.command, middle)] := by
        cases statement <;> rfl
      rw [isWrite]
      -- Only a declaration can be refused, and then it is not among the accepted statements.
      rcases run_write statement middle with ⟨written, wrote, same⟩ |
        ⟨declaration, annotations, position, store, rfl, refused, failed⟩
      · have fewer : written.stream.ahead.length < limit := by
          have shorter := (Reads.statement_enclosed read).2
          rw [same]
          omega
        obtain ⟨accepted, last, result, after, extra, others, halts, ran, writes⟩ := ih fewer
        refine ⟨(statement, middle) :: accepted, last, result, after, extra,
          .more read wrote others, halts, ?_, ?_⟩
        · rw [wrote]
          exact ran
        · rw [wrote]
          simp only [writes]
          rfl
      · refine ⟨[], session, _, _, _, .none, .refused read refused, ?_, ?_⟩
        · rw [failed]
        · rw [failed]
          rfl

end OwlFunctional
