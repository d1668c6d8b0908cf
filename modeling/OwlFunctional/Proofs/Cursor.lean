import OwlFunctional.Proofs.Run

/-! What the queries of a reading do to the lexemes ahead.

Trivia is passed over whenever a token is read or looked at, so two inputs that differ only in
the trivia they start with are read alike.
-/

set_option autoImplicit false

namespace OwlFunctional

/-- An input from its first lexeme on that is not trivia. -/
def significant (input : List Lexeme) : List Lexeme :=
  input.dropWhile fun lexeme => lexeme.token.isTrivia

@[simp] theorem significant_nil : significant [] = [] := rfl

theorem significant_cons_of_trivia {lexeme : Lexeme} (trivia : lexeme.token.isTrivia = true)
    (input : List Lexeme) : significant (lexeme :: input) = significant input :=
  List.dropWhile_cons_of_pos trivia

theorem significant_cons {lexeme : Lexeme} (telling : lexeme.token.isTrivia = false)
    (input : List Lexeme) : significant (lexeme :: input) = lexeme :: input :=
  List.dropWhile_cons_of_neg (by simp [telling])

@[simp] theorem significant_significant (input : List Lexeme) :
    significant (significant input) = significant input := by
  induction input with
  | nil => rfl
  | cons lexeme input ih =>
    cases trivia : lexeme.token.isTrivia with
    | true => rw [significant_cons_of_trivia trivia, ih]
    | false => rw [significant_cons trivia, significant_cons trivia]

theorem significant_suffix (input : List Lexeme) : significant input <:+ input :=
  List.dropWhile_suffix _

theorem not_trivia_of_significant {lexeme : Lexeme} {input rest : List Lexeme}
    (same : significant input = lexeme :: rest) : lexeme.token.isTrivia = false := by
  have kept := significant_significant input
  rw [same] at kept
  cases trivia : lexeme.token.isTrivia with
  | false => rfl
  | true =>
    rw [significant_cons_of_trivia trivia] at kept
    have shorter := (significant_suffix rest).length_le
    rw [kept, List.length_cons] at shorter
    omega

/-- An input goes on with a lexeme, perhaps after trivia, and then with the rest. -/
def Takes (lexeme : Lexeme) (input rest : List Lexeme) : Prop :=
  significant input = lexeme :: rest

/-- The token that an input starts with, trivia aside. At the end it is the end of the input. -/
def firstLexeme (input : List Lexeme) : Lexeme := (significant input).head?.getD .eof

theorem Takes.first {lexeme : Lexeme} {input rest : List Lexeme} (takes : Takes lexeme input rest) :
    firstLexeme input = lexeme := by
  unfold firstLexeme
  rw [takes]
  rfl

theorem Takes.suffix {lexeme : Lexeme} {input rest : List Lexeme} (takes : Takes lexeme input rest) :
    rest <:+ input := by
  have skipped := significant_suffix input
  rw [takes] at skipped
  exact (List.suffix_cons lexeme rest).trans skipped

theorem Takes.unique {lexeme other : Lexeme} {input rest after : List Lexeme}
    (takes : Takes lexeme input rest) (also : Takes other input after) :
    lexeme = other ∧ rest = after :=
  List.cons.inj (takes.symm.trans also)

/-- A line end is no parenthesis, so it makes no exception. -/
theorem Place.after_balance (place : Place) (lexeme : Lexeme) :
    (place.after lexeme).balance = place.balance + weight lexeme.token := by
  unfold after
  split
  · next line => simp [line, weight]
  · rfl

namespace Stream

def NoEof (stream : Stream) : Prop := ∀ lexeme ∈ stream.ahead, lexeme.token ≠ .eof

@[simp] theorem scan_ahead (stream : Stream) : stream.scan.2.ahead = stream.ahead.tail := by
  simp only [scan]
  split <;> rfl

@[simp] theorem scan_lastStep (stream : Stream) :
    stream.scan.2.lastStep = .read stream.next stream.position := by
  simp only [scan]
  split <;> rfl

@[simp] theorem scan_lexeme (stream : Stream) : stream.scan.1.lexeme = stream.next := rfl

theorem scan_place (stream : Stream) : stream.scan.2.place = stream.place.after stream.next := by
  simp only [scan]
  split <;> rfl

theorem skip_ahead (count : Nat) (stream : Stream) :
    (stream.skip count).ahead = stream.ahead.drop count := by
  induction count generalizing stream with
  | zero => rfl
  | succ count ih => rw [skip, ih, scan_ahead, List.drop_tail]

theorem skip_leadingTrivia_ahead (stream : Stream) :
    (stream.skip stream.leadingTrivia).ahead = significant stream.ahead := by
  rw [skip_ahead, leadingTrivia, significant]
  induction stream.ahead with
  | nil => rfl
  | cons lexeme ahead ih =>
    cases trivia : lexeme.token.isTrivia with
    | true => simpa [trivia] using ih
    | false => simp [trivia]

@[simp] theorem token_lexeme (stream : Stream) :
    stream.token.1.lexeme = firstLexeme stream.ahead := by
  rw [token, scan_lexeme, next, skip_leadingTrivia_ahead, firstLexeme]

@[simp] theorem token_ahead (stream : Stream) :
    stream.token.2.ahead = (significant stream.ahead).tail := by
  rw [token, scan_ahead, skip_leadingTrivia_ahead]

theorem token_lastStep (stream : Stream) :
    ∃ position, stream.token.2.lastStep = .read (firstLexeme stream.ahead) position := by
  refine ⟨(stream.skip stream.leadingTrivia).position, ?_⟩
  rw [token, scan_lastStep, next, skip_leadingTrivia_ahead, firstLexeme]

/-- There is only one step to take back. -/
theorem unscan_unscan (stream : Stream) : stream.unscan.unscan = stream.unscan := by
  cases last : stream.lastStep <;> simp [unscan, last]

/-- A lexeme that was read and put back is ahead again. At the end nothing was ahead. -/
theorem unscan_ahead {stream : Stream} {input : List Lexeme} {before : Position}
    (noEof : ∀ lexeme ∈ input, lexeme.token ≠ .eof)
    (last : stream.lastStep = .read (input.head?.getD .eof) before)
    (behind : stream.ahead = input.tail) : stream.unscan.ahead = input := by
  unfold unscan
  rw [last]
  cases input with
  | nil => simpa [Lexeme.eof] using behind
  | cons lexeme input => simpa [noEof lexeme (by simp)] using behind

theorem unscan_place {stream : Stream} {lexeme : Lexeme} {before : Place} {source : String}
    (last : stream.lastStep = .read lexeme ⟨source, before.line, before.head⟩)
    (reached : stream.place = before.after lexeme) : stream.unscan.place = before := by
  have undone : stream.place.balance - Place.weight lexeme.token = before.balance := by
    rw [reached, Place.after_balance]
    omega
  unfold unscan
  rw [last]
  dsimp only
  rw [undone]

theorem scan_unscan_place (stream : Stream) : stream.scan.2.unscan.place = stream.place :=
  unscan_place stream.scan_lastStep stream.scan_place

theorem NoEof.significant {stream : Stream} (noEof : stream.NoEof) :
    ∀ lexeme ∈ significant stream.ahead, lexeme.token ≠ .eof :=
  fun lexeme member => noEof lexeme ((significant_suffix _).subset member)

theorem token_unscan_ahead {stream : Stream} (noEof : stream.NoEof) :
    stream.token.2.unscan.ahead = OwlFunctional.significant stream.ahead := by
  obtain ⟨before, last⟩ := stream.token_lastStep
  exact unscan_ahead noEof.significant last stream.token_ahead

theorem peek_ahead {stream : Stream} (noEof : stream.NoEof) :
    stream.peek.2.ahead = OwlFunctional.significant stream.ahead := token_unscan_ahead noEof

theorem scan_unscan_ahead {stream : Stream} (noEof : stream.NoEof) :
    stream.scan.2.unscan.ahead = stream.ahead :=
  unscan_ahead noEof stream.scan_lastStep stream.scan_ahead

theorem NoEof.of_suffix {stream later : Stream} (noEof : stream.NoEof)
    (suffix : later.ahead <:+ stream.ahead) : later.NoEof :=
  fun lexeme member => noEof lexeme (suffix.subset member)

theorem NoEof.scan {stream : Stream} (noEof : stream.NoEof) : stream.scan.2.NoEof := by
  intro lexeme member
  rw [scan_ahead] at member
  exact noEof lexeme (List.mem_of_mem_tail member)

theorem NoEof.skip {stream : Stream} (noEof : stream.NoEof) (count : Nat) :
    (stream.skip count).NoEof := by
  intro lexeme member
  rw [skip_ahead] at member
  exact noEof lexeme (List.mem_of_mem_drop member)

theorem NoEof.token {stream : Stream} (noEof : stream.NoEof) : stream.token.2.NoEof :=
  (noEof.skip _).scan

theorem NoEof.unscan {stream : Stream} (noEof : stream.NoEof) : stream.unscan.NoEof := by
  unfold Stream.unscan
  split
  · next lexeme before last =>
    intro other member
    simp only at member
    split at member
    · exact noEof other member
    · next visible =>
      rcases List.mem_cons.mp member with rfl | member
      · exact visible
      · exact noEof other member
  · exact noEof

theorem NoEof.subtag {stream : Stream} (noEof : stream.NoEof) : stream.subtag.2.NoEof := by
  simp only [Stream.subtag]
  split
  · split
    · exact noEof.scan.scan
    · exact noEof.scan.scan
  · split
    · exact noEof.scan
    · exact noEof.scan.unscan

end Stream

/-- The session stands before an input, trivia at its start aside. -/
structure Session.At {σ : Type} (session : Session σ) (input : List Lexeme) : Prop where
  alike : significant session.stream.ahead = significant input
  noEof : session.stream.NoEof

/-- The session stands before an input that nothing was read of, so no step can be put back. -/
structure Session.Begins {σ : Type} (session : Session σ) (input : List Lexeme) : Prop where
  ahead : session.stream.ahead = input
  noEof : session.stream.NoEof
  fresh : session.stream.lastStep = .none

namespace Session.Begins

variable {σ : Type} {session : Session σ} {input : List Lexeme}

theorem atInput (begins : session.Begins input) : session.At input :=
  ⟨congrArg significant begins.ahead, begins.noEof⟩

theorem unscan (begins : session.Begins input) : session.stream.unscan = session.stream := by
  unfold Stream.unscan
  rw [begins.fresh]

end Session.Begins

namespace Reads

variable {σ α : Type} [Store σ] {checks : Checks} {session after : Session σ}
  {input rest : List Lexeme}

theorem noEof {reading : Reading α} {value : α} (read : Reads checks reading session value after)
    (noEof : session.stream.NoEof) : after.stream.NoEof := by
  refine read.relates (fun first second => first.stream.NoEof → second.stream.NoEof)
    (fun _ => id) (fun first second => second ∘ first) ?_ noEof
  intro query state noEof
  cases query with
  | token => exact noEof.token
  | peek => exact noEof.token.unscan
  | unscan => exact noEof.unscan
  | subtag => exact noEof.subtag
  | find kind iri =>
    simp only [Session.answer]
    split <;> exact noEof
  | here => exact noEof
  | checkIri text => exact noEof
  | checkTag tag => exact noEof
  | report event => exact noEof

theorem atAhead {reading : Reading α} {value : α}
    (read : Reads checks reading session value after) (here : session.At input)
    (same : after.stream.ahead = rest) : after.At rest :=
  ⟨by rw [same], read.noEof here.noEof⟩

theorem atItself {reading : Reading α} {value : α}
    (read : Reads checks reading session value after) (here : session.At input) :
    after.At after.stream.ahead := read.atAhead here rfl

theorem takes_of_token {scanned : Scanned} (read : Reads checks Reading.token session scanned after)
    (here : session.At input) (visible : scanned.token ≠ .eof) :
    Takes scanned.lexeme input after.stream.ahead := by
  obtain ⟨rfl, rfl⟩ := token_iff.mp read
  simp only [Scanned.token, Stream.token_lexeme, firstLexeme] at visible
  simp only [Takes, Stream.token_lexeme, firstLexeme, Stream.token_ahead]
  rw [← here.alike]
  cases ahead : significant session.stream.ahead with
  | nil => simp [ahead, Lexeme.eof] at visible
  | cons lexeme rest => rfl

theorem takes_token {kind : Token} {scanned : Scanned}
    (read : Reads checks Reading.token session scanned after) (here : session.At input)
    (same : scanned.token = kind) (visible : kind ≠ .eof) :
    Takes ⟨kind, scanned.literal⟩ input after.stream.ahead := by
  subst same
  exact read.takes_of_token here visible

theorem token_first {scanned : Scanned} (read : Reads checks Reading.token session scanned after)
    (here : session.At input) : scanned.lexeme = firstLexeme input := by
  obtain ⟨rfl, rfl⟩ := token_iff.mp read
  rw [Stream.token_lexeme, firstLexeme, firstLexeme, here.alike]

theorem token_of_takes {lexeme : Lexeme} (takes : Takes lexeme input rest)
    (here : session.At input) :
    ∃ scanned after, Reads checks Reading.token session scanned after ∧
      scanned.lexeme = lexeme ∧ after.stream.ahead = rest := by
  refine ⟨_, _, token_iff.mpr ⟨rfl, rfl⟩, ?_, ?_⟩
  · rw [Stream.token_lexeme, ← takes.first, firstLexeme, firstLexeme, here.alike]
  · rw [Stream.token_ahead, here.alike, takes]
    rfl

theorem expect_of_takes (checks : Checks) {lexeme : Lexeme} (takes : Takes lexeme input rest)
    (here : session.At input) :
    ∃ after, Reads checks (Reading.expect lexeme.token) session () after ∧
      after.stream.ahead = rest ∧ after.store = session.store := by
  obtain ⟨scanned, after, scan, same, ahead⟩ : ∃ scanned after,
    Reads checks Reading.token session scanned after ∧ _ := token_of_takes takes here
  refine ⟨after, expect_iff.mpr ⟨scanned, scan, by rw [Scanned.token, same]⟩, ahead, ?_⟩
  obtain ⟨-, rfl⟩ := token_iff.mp scan
  rfl

theorem peek_at {scanned : Scanned} (read : Reads checks Reading.peek session scanned after)
    (here : session.At input) :
    scanned.lexeme = firstLexeme input ∧ after.At input := by
  refine ⟨?_, ?_, read.noEof here.noEof⟩
  · obtain ⟨rfl, rfl⟩ := peek_iff.mp read
    rw [Stream.token_lexeme, firstLexeme, firstLexeme, here.alike]
  · obtain ⟨rfl, rfl⟩ := peek_iff.mp read
    rw [Stream.peek_ahead here.noEof, significant_significant, here.alike]

/-- A look at the next token always succeeds. -/
theorem peek_total (here : session.At input) :
    ∃ scanned after, Reads checks Reading.peek session scanned after ∧
      scanned.lexeme = firstLexeme input ∧ after.At input := by
  have read : Reads checks Reading.peek session _ _ := peek_iff.mpr ⟨rfl, rfl⟩
  exact ⟨_, _, read, read.peek_at here⟩

/-- A token that was read and put back was only looked at. -/
theorem unscan_at {scanned : Scanned} {between : Session σ}
    (read : Reads checks Reading.token session scanned between)
    (back : Reads checks Reading.unscan between () after) (here : session.At input) :
    after.At input := by
  refine ⟨?_, back.noEof (read.noEof here.noEof)⟩
  obtain ⟨rfl, rfl⟩ := token_iff.mp read
  obtain rfl := unscan_iff.mp back
  rw [Stream.token_unscan_ahead here.noEof, significant_significant, here.alike]

end Reads

end OwlFunctional
