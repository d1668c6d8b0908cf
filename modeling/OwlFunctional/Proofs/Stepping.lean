import Mathlib.Data.List.DropRight
import OwlFunctional.Proofs.Cursor
import OwlFunctional.Proofs.Scanning

/-! A stream as a cursor over a fixed sequence of lexemes.

A stream keeps its line, its balance and the lexeme it can put back from step to step. Here the
same is told from outside, by the number of lexemes that were passed and by whether the last of
them may be put back. For every sequence of calls a stream answers as such a cursor does, and
its place is the one that the passed lexemes make.
-/

set_option autoImplicit false

namespace OwlFunctional

/-- The lexeme with a number, counted from zero. Past the last one the end is read for ever. -/
def lexemeAt (lexemes : List Lexeme) (index : Nat) : Lexeme := lexemes[index]?.getD .eof

theorem lexemeAt_eq_head (lexemes : List Lexeme) (index : Nat) :
    lexemeAt lexemes index = (lexemes.drop index).head?.getD .eof := by
  rw [lexemeAt, List.head?_drop]

def passed (lexemes : List Lexeme) (index : Nat) : List Lexeme :=
  (List.range index).map (lexemeAt lexemes)

/-- The place after some lexemes: it counts the line ends and the parentheses among them, and its
head is the text after the last line end. -/
def Place.past (before : List Lexeme) : Place where
  line := before.countP fun lexeme => lexeme.token = .eol
  head := .join ((before.rtakeWhile fun lexeme => lexeme.token ≠ .eol).map Lexeme.literal)
  balance := (before.countP fun lexeme => lexeme.token = .openParen : Nat) -
    (before.countP fun lexeme => lexeme.token = .closeParen : Nat)

theorem Place.past_nil : Place.past [] = .start := by
  simp [past, start, String.join]

theorem Place.past_concat (before : List Lexeme) (lexeme : Lexeme) :
    Place.past (before ++ [lexeme]) = (Place.past before).after lexeme := by
  by_cases line : lexeme.token = .eol
  · simp [past, after, line, String.join]
  · by_cases opens : lexeme.token = .openParen
    · simp [past, after, opens, weight]
      omega
    · by_cases closes : lexeme.token = .closeParen
      · simp [past, after, closes, weight]
        omega
      · have neutral : weight lexeme.token = 0 := by
          cases same : lexeme.token <;> simp_all [weight]
        simp [past, after, line, opens, closes, neutral]

theorem passed_succ (lexemes : List Lexeme) (index : Nat) :
    passed lexemes (index + 1) = passed lexemes index ++ [lexemeAt lexemes index] := by
  simp [passed, List.range_succ]

def placeAt (lexemes : List Lexeme) (index : Nat) : Place := .past (passed lexemes index)

theorem placeAt_zero (lexemes : List Lexeme) : placeAt lexemes 0 = .start := Place.past_nil

theorem placeAt_succ (lexemes : List Lexeme) (index : Nat) :
    placeAt lexemes (index + 1) = (placeAt lexemes index).after (lexemeAt lexemes index) := by
  rw [placeAt, passed_succ, Place.past_concat, placeAt]

def scannedAt (source : String) (lexemes : List Lexeme) (index : Nat) : Scanned :=
  ⟨lexemeAt lexemes index,
    ⟨source, (placeAt lexemes index).line, (placeAt lexemes index).head⟩⟩

/-- The lexemes from a number on are trivia up to another number, where one stands that is none. -/
structure Telling (lexemes : List Lexeme) (start index : Nat) : Prop where
  le : start ≤ index
  trivia : ∀ between, start ≤ between → between < index →
    (lexemeAt lexemes between).token.isTrivia = true
  telling : (lexemeAt lexemes index).token.isTrivia = false

theorem telling_drop (lexemes : List Lexeme) (start : Nat) :
    Telling lexemes start (start +
      ((lexemes.drop start).takeWhile fun lexeme => lexeme.token.isTrivia).length) := by
  -- The induction is on the lexemes ahead, since the numbers themselves have no end.
  induction ahead : lexemes.drop start generalizing start with
  | nil =>
    have ended : lexemeAt lexemes start = .eof := by
      rw [lexemeAt_eq_head, ahead]
      rfl
    exact ⟨Nat.le_refl _, fun between above below => absurd below (Nat.not_lt.mpr above),
      congrArg (fun lexeme : Lexeme => lexeme.token.isTrivia) ended⟩
  | cons lexeme rest ih =>
    have first : lexemeAt lexemes start = lexeme := by
      rw [lexemeAt_eq_head, ahead]
      rfl
    cases trivia : lexeme.token.isTrivia with
    | false =>
      rw [List.takeWhile_cons_of_neg (by simp [trivia])]
      exact ⟨Nat.le_refl _, fun between above below => absurd below (Nat.not_lt.mpr above),
        by rw [List.length_nil, Nat.add_zero, first, trivia]⟩
    | true =>
      have further := ih (start + 1) (by rw [← List.tail_drop, ahead, List.tail_cons])
      rw [List.takeWhile_cons_of_pos (by simpa using trivia), List.length_cons]
      rw [Nat.add_right_comm] at further
      refine ⟨by omega, fun between above below => ?_, further.telling⟩
      rcases Nat.eq_or_lt_of_le above with rfl | above
      · rw [first, trivia]
      · exact further.trivia between above below

/-! ## Calls and their answers -/

inductive Call where
  | scan
  | token
  | peek
  | unscan
  | expect (tokens : List Token)

inductive Answer where
  | scanned (scanned : Scanned)
  | silent
  | outcome (result : Except SyntaxError Unit)

section Calls

variable {σ : Type} [Store σ]

def Call.perform (checks : Checks) : Call → Session σ → Answer × Session σ
  | .scan, session =>
    (.scanned session.stream.scan.1, { session with stream := session.stream.scan.2 })
  | .token, session =>
    (.scanned session.stream.token.1, { session with stream := session.stream.token.2 })
  | .peek, session =>
    (.scanned session.stream.peek.1, { session with stream := session.stream.peek.2 })
  | .unscan, session => (.silent, { session with stream := session.stream.unscan })
  | .expect tokens, session =>
    let run := (Reading.expectAll tokens).run (Session.reader checks) session
    (.outcome run.1, run.2)

def Call.performAll (checks : Checks) : List Call → Session σ → List (Answer × Place) × Session σ
  | [], session => ([], session)
  | call :: calls, session =>
    let first := call.perform checks session
    let rest := performAll checks calls first.2
    ((first.1, first.2.stream.place) :: rest.1, rest.2)

end Calls

/-- A number of lexemes that were passed, and whether the last of them may be put back: one was
read since the last time that was done. -/
structure Cursor where
  index : Nat
  mayReturn : Bool

/-- How a call moves a cursor over the lexemes of a source, and its answer. -/
inductive Cursor.Moves (source : String) (lexemes : List Lexeme) :
    Cursor → Call → Answer → Cursor → Prop where
  | scan {cursor : Cursor} : Moves source lexemes cursor .scan
      (.scanned (scannedAt source lexemes cursor.index)) ⟨cursor.index + 1, true⟩
  | token {cursor : Cursor} {index : Nat} : Telling lexemes cursor.index index →
      Moves source lexemes cursor .token
        (.scanned (scannedAt source lexemes index)) ⟨index + 1, true⟩
  | peek {cursor : Cursor} {index : Nat} : Telling lexemes cursor.index index →
      Moves source lexemes cursor .peek (.scanned (scannedAt source lexemes index)) ⟨index, false⟩
  | back {index : Nat} :
      Moves source lexemes ⟨index + 1, true⟩ .unscan .silent ⟨index, false⟩
  | stay {index : Nat} : Moves source lexemes ⟨index, false⟩ .unscan .silent ⟨index, false⟩
  | expectNone {cursor : Cursor} :
      Moves source lexemes cursor (.expect []) (.outcome (.ok ())) cursor
  | expectNext {cursor after : Cursor} {index : Nat} {token : Token} {tokens : List Token}
      {answer : Answer} : Telling lexemes cursor.index index →
      (lexemeAt lexemes index).token = token →
      Moves source lexemes ⟨index + 1, true⟩ (.expect tokens) answer after →
      Moves source lexemes cursor (.expect (token :: tokens)) answer after
  | expectOther {cursor : Cursor} {index : Nat} {token : Token} {tokens : List Token} :
      Telling lexemes cursor.index index → (lexemeAt lexemes index).token ≠ token →
      Moves source lexemes cursor (.expect (token :: tokens))
        (.outcome (.error (.found (scannedAt source lexemes index).position
          (.expected token (lexemeAt lexemes index))))) ⟨index + 1, true⟩

/-- How a sequence of calls moves a cursor. Each answer is noted with the place that the lexemes
before the cursor make. -/
inductive Cursor.Walks (source : String) (lexemes : List Lexeme) :
    Cursor → List Call → List (Answer × Place) → Cursor → Prop where
  | nil {cursor : Cursor} : Walks source lexemes cursor [] [] cursor
  | cons {cursor between after : Cursor} {call : Call} {calls : List Call} {answer : Answer}
      {answers : List (Answer × Place)} : Moves source lexemes cursor call answer between →
      Walks source lexemes between calls answers after →
      Walks source lexemes cursor (call :: calls)
        ((answer, placeAt lexemes between.index) :: answers) after

theorem Telling.unique {lexemes : List Lexeme} {start index other : Nat}
    (first : Telling lexemes start index) (second : Telling lexemes start other) :
    other = index := by
  rcases Nat.lt_trichotomy index other with less | same | less
  · have trivia := second.trivia index first.le less
    rw [first.telling] at trivia
    contradiction
  · exact same.symm
  · have trivia := first.trivia other second.le less
    rw [second.telling] at trivia
    contradiction

theorem Cursor.Moves.unique {source : String} {lexemes : List Lexeme} {cursor after reached : Cursor}
    {call : Call} {answer other : Answer} (first : Moves source lexemes cursor call answer after)
    (second : Moves source lexemes cursor call other reached) :
    other = answer ∧ reached = after := by
  -- By induction on `first`, as an expected sequence is a move followed by moves.
  induction first generalizing other reached with
  | scan =>
    cases second with
    | scan => exact ⟨rfl, rfl⟩
  | token telling =>
    cases second with
    | token again =>
      obtain rfl := telling.unique again
      exact ⟨rfl, rfl⟩
  | peek telling =>
    cases second with
    | peek again =>
      obtain rfl := telling.unique again
      exact ⟨rfl, rfl⟩
  | back =>
    cases second with
    | back => exact ⟨rfl, rfl⟩
  | stay =>
    cases second with
    | stay => exact ⟨rfl, rfl⟩
  | expectNone =>
    cases second with
    | expectNone => exact ⟨rfl, rfl⟩
  | expectNext telling same _ ih =>
    cases second with
    | expectNext again _ moves =>
      obtain rfl := telling.unique again
      exact ih moves
    | expectOther again differs =>
      obtain rfl := telling.unique again
      exact absurd same differs
  | expectOther telling differs =>
    cases second with
    | expectNext again same _ =>
      obtain rfl := telling.unique again
      exact absurd same differs
    | expectOther again _ =>
      obtain rfl := telling.unique again
      exact ⟨rfl, rfl⟩

theorem Cursor.Walks.unique {source : String} {lexemes : List Lexeme} {cursor after reached : Cursor}
    {calls : List Call} {answers others : List (Answer × Place)}
    (first : Walks source lexemes cursor calls answers after)
    (second : Walks source lexemes cursor calls others reached) :
    others = answers ∧ reached = after := by
  induction first generalizing others reached with
  | nil =>
    cases second
    exact ⟨rfl, rfl⟩
  | cons moves _ ih =>
    cases second with
    | cons again rest =>
      obtain ⟨rfl, rfl⟩ := moves.unique again
      obtain ⟨rfl, rfl⟩ := ih rest
      exact ⟨rfl, rfl⟩

/-! ## What a stream has of its cursor -/

structure Stream.Stands (stream : Stream) (source : String) (lexemes : List Lexeme)
    (cursor : Cursor) : Prop where
  named : stream.source = source
  ahead : stream.ahead = lexemes.drop cursor.index
  place : stream.place = placeAt lexemes cursor.index
  last : cursor.mayReturn = true → ∃ index, cursor.index = index + 1 ∧
    stream.lastStep = .read (lexemeAt lexemes index) (scannedAt source lexemes index).position
  rest : cursor.mayReturn = false →
    ∀ lexeme before, stream.lastStep ≠ .read lexeme before

namespace Stream

variable {stream : Stream} {source : String} {lexemes : List Lexeme} {cursor : Cursor}

theorem scan_source (stream : Stream) : stream.scan.2.source = stream.source := by
  simp only [scan]
  split <;> rfl

theorem ofInput_stands (source : String) (input : Input) (logs : Bool) :
    Stands { ofInput source input with logsTokens := logs } source
      (Lexeme.lexemesOf input.chars) ⟨0, false⟩ where
  named := rfl
  ahead := rfl
  place := (placeAt_zero _).symm
  last := by simp
  rest := by simp [ofInput]

namespace Stands

theorem next (stands : stream.Stands source lexemes cursor) :
    stream.next = lexemeAt lexemes cursor.index := by
  rw [Stream.next, stands.ahead, lexemeAt_eq_head]

theorem scanned (stands : stream.Stands source lexemes cursor) :
    stream.scan.1 = scannedAt source lexemes cursor.index := by
  simp [Stream.scan, scannedAt, stands.next, Stream.position, stands.named, stands.place]

theorem scan (stands : stream.Stands source lexemes cursor) :
    stream.scan.2.Stands source lexemes ⟨cursor.index + 1, true⟩ where
  named := by rw [scan_source, stands.named]
  ahead := by rw [scan_ahead, stands.ahead, List.tail_drop]
  place := by rw [scan_place, stands.place, stands.next, placeAt_succ]
  last _ := ⟨cursor.index, rfl, by
    rw [scan_lastStep, stands.next, position, stands.named, stands.place]
    rfl⟩
  rest := by simp

theorem skip (stands : stream.Stands source lexemes cursor) (count : Nat) :
    ∃ mayReturn, (stream.skip count).Stands source lexemes ⟨cursor.index + count, mayReturn⟩ := by
  induction count generalizing stream cursor with
  | zero => exact ⟨cursor.mayReturn, stands⟩
  | succ count ih =>
    obtain ⟨mayReturn, reached⟩ := ih stands.scan
    rw [Nat.add_right_comm] at reached
    exact ⟨mayReturn, reached⟩

theorem telling (stands : stream.Stands source lexemes cursor) :
    Telling lexemes cursor.index (cursor.index + stream.leadingTrivia) := by
  rw [leadingTrivia, stands.ahead]
  exact telling_drop lexemes cursor.index

theorem token (stands : stream.Stands source lexemes cursor) :
    ∃ index, Telling lexemes cursor.index index ∧
      stream.token.1 = scannedAt source lexemes index ∧
      stream.token.2.Stands source lexemes ⟨index + 1, true⟩ := by
  obtain ⟨mayReturn, reached⟩ := stands.skip stream.leadingTrivia
  exact ⟨_, stands.telling, reached.scanned, reached.scan⟩

theorem unscan_read {index : Nat} (noEof : ∀ lexeme ∈ lexemes, lexeme.token ≠ .eof)
    (stands : stream.Stands source lexemes ⟨index + 1, true⟩) :
    stream.unscan.Stands source lexemes ⟨index, false⟩ := by
  obtain ⟨same, next, last⟩ := stands.last rfl
  obtain rfl : index = same := Nat.succ.inj next
  -- The end of the input was read without taking a lexeme, and none is put back for it. This is
  -- told from its token, so no lexeme of the sequence may have that token.
  have behind : stream.unscan.ahead = lexemes.drop index := by
    rw [lexemeAt_eq_head] at last
    refine unscan_ahead (fun lexeme member => noEof lexeme (List.mem_of_mem_drop member)) last ?_
    rw [stands.ahead, List.tail_drop]
  have undone : stream.unscan.place = placeAt lexemes index :=
    unscan_place last (stands.place.trans (placeAt_succ lexemes index))
  unfold Stream.unscan at behind undone ⊢
  rw [last] at behind undone ⊢
  exact ⟨stands.named, behind, undone, by simp, by simp⟩

theorem unscan_idle (idle : cursor.mayReturn = false)
    (stands : stream.Stands source lexemes cursor) : stream.unscan = stream := by
  unfold Stream.unscan
  split
  · next lexeme before last => exact absurd last (stands.rest idle lexeme before)
  · rfl

end Stands

end Stream

/-! ## Streams answer as cursors do -/

section Runs

variable {σ : Type} [Store σ] {checks : Checks} {source : String} {lexemes : List Lexeme}
  {cursor : Cursor}

theorem Reading.run_expect_met {token : Token} {session : Session σ}
    (met : session.stream.token.1.token = token) :
    (Reading.expect token).run (Session.reader checks) session =
      (.ok (), { session with stream := session.stream.token.2 }) :=
  Reads.expect_iff.mpr ⟨_, Reads.token_iff.mpr ⟨rfl, rfl⟩, met⟩

theorem Reading.run_expect_other {token : Token} {session : Session σ}
    (other : session.stream.token.1.token ≠ token) :
    (Reading.expect token).run (Session.reader checks) session =
      (.error (.found session.stream.token.1.position
        (.expected token session.stream.token.1.lexeme)),
        { session with stream := session.stream.token.2 }) := by
  have read : Reads checks Reading.token session _ _ := Reads.token_iff.mpr ⟨rfl, rfl⟩
  unfold Reading.expect
  rw [Program.run_bind, read]
  simp only [if_neg other]
  rfl

theorem Reading.expectAll_moves (tokens : List Token) (session : Session σ)
    (stands : session.stream.Stands source lexemes cursor) :
    ∃ after, Cursor.Moves source lexemes cursor (.expect tokens)
        (.outcome ((expectAll tokens).run (Session.reader checks) session).1) after ∧
      ((expectAll tokens).run (Session.reader checks) session).2.stream.Stands
        source lexemes after ∧
      ((expectAll tokens).run (Session.reader checks) session).2.store = session.store := by
  induction tokens generalizing session cursor with
  | nil => exact ⟨cursor, .expectNone, stands, rfl⟩
  | cons token tokens ih =>
    obtain ⟨index, telling, answer, reached⟩ := stands.token
    rw [expectAll, Program.run_bind]
    by_cases same : session.stream.token.1.token = token
    · rw [run_expect_met same]
      obtain ⟨after, moves, stands, kept⟩ :=
        ih { session with stream := session.stream.token.2 } reached
      rw [answer] at same
      exact ⟨after, .expectNext telling same moves, stands, kept⟩
    · rw [run_expect_other same]
      rw [answer] at same ⊢
      exact ⟨_, .expectOther telling same, reached, rfl⟩

theorem Call.perform_moves (checks : Checks) (noEof : ∀ lexeme ∈ lexemes, lexeme.token ≠ .eof)
    (call : Call) (session : Session σ) (stands : session.stream.Stands source lexemes cursor) :
    ∃ after, Cursor.Moves source lexemes cursor call (call.perform checks session).1 after ∧
      (call.perform checks session).2.stream.Stands source lexemes after ∧
      (call.perform checks session).2.store = session.store := by
  cases call with
  | scan =>
    rw [perform, stands.scanned]
    exact ⟨_, .scan, stands.scan, rfl⟩
  | token =>
    obtain ⟨index, telling, answer, reached⟩ := stands.token
    rw [perform, answer]
    exact ⟨_, .token telling, reached, rfl⟩
  | peek =>
    obtain ⟨index, telling, answer, reached⟩ := stands.token
    rw [perform, Stream.peek, answer]
    exact ⟨_, .peek telling, reached.unscan_read noEof, rfl⟩
  | unscan =>
    obtain ⟨index, mayReturn⟩ := cursor
    cases mayReturn with
    | false =>
      rw [perform, stands.unscan_idle rfl]
      exact ⟨_, .stay, stands, rfl⟩
    | true =>
      obtain ⟨before, place, -⟩ := stands.last rfl
      obtain rfl : index = before + 1 := place
      exact ⟨_, .back, stands.unscan_read noEof, rfl⟩
  | expect tokens => exact Reading.expectAll_moves tokens session stands

theorem Call.performAll_walks (checks : Checks) (noEof : ∀ lexeme ∈ lexemes, lexeme.token ≠ .eof)
    (calls : List Call) (session : Session σ)
    (stands : session.stream.Stands source lexemes cursor) :
    ∃ after, Cursor.Walks source lexemes cursor calls (performAll checks calls session).1 after ∧
      (performAll checks calls session).2.stream.Stands source lexemes after ∧
      (performAll checks calls session).2.store = session.store := by
  induction calls generalizing session cursor with
  | nil => exact ⟨cursor, .nil, stands, rfl⟩
  | cons call calls ih =>
    obtain ⟨between, moves, reached, kept⟩ := perform_moves checks noEof call session stands
    obtain ⟨after, walks, stands, others⟩ := ih _ reached
    rw [performAll, reached.place]
    exact ⟨after, .cons moves walks, stands, others.trans kept⟩

end Runs

/-- A stream is a cursor over the lexemes of its input with one bit that tells whether a step back
is left. Whatever the calls, the answers are those of the cursor and no others, and after each call
the place counts the lexemes before it. No call touches the store. -/
theorem performAll_refines_cursor {σ : Type} [Store σ] (checks : Checks) (source : String)
    (input : Input) (logs : Bool) (store : σ) (calls : List Call) :
    let opened := { Stream.ofInput source input with logsTokens := logs }
    let run := Call.performAll checks calls ⟨opened, store⟩
    ∃ cursor, (∀ answers reached,
        Cursor.Walks source (Lexeme.lexemesOf input.chars) ⟨0, false⟩ calls answers reached ↔
          answers = run.1 ∧ reached = cursor) ∧
      run.2.stream.place = placeAt (Lexeme.lexemesOf input.chars) cursor.index ∧
      run.2.store = store := by
  intro opened run
  have noEof : ∀ lexeme ∈ Lexeme.lexemesOf input.chars, lexeme.token ≠ .eof :=
    fun lexeme member => (Lexeme.lexemesOf_formed input.chars lexeme member).ne_eof
  obtain ⟨cursor, walks, stands, kept⟩ := Call.performAll_walks checks noEof calls
    ⟨opened, store⟩ (Stream.ofInput_stands source input logs)
  refine ⟨cursor, fun answers reached => ⟨walks.unique, ?_⟩, stands.place, kept⟩
  rintro ⟨rfl, rfl⟩
  exact walks

end OwlFunctional
