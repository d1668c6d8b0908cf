import OwlFunctional.Proofs.Entities
import OwlFunctional.Proofs.Gaps
import OwlFunctional.Proofs.Termination

/-! Reading the same lexemes again, before another rest of the input.

A construct that was read is read again from the same lexemes, whatever follows them, and from a
catalogue that knows no less. Nothing of what follows was looked at, or the cursor would have gone
past the end of the construct and could not be put back to it.
-/

set_option autoImplicit false

namespace OwlFunctional

open Spelling (significant_append significant_append_of_silent ContinuesTag)

/-- Before different rests the same lexemes lie ahead of two sessions, also if the last one is put
back, and the second catalogue knows what the first one knows. -/
structure Shares (rest other : List Lexeme) (session twin : Session Catalogue) : Prop where
  ahead : ∃ taken, session.stream.ahead = taken ++ rest ∧ twin.stream.ahead = taken ++ other
  back : ∃ taken, session.stream.unscan.ahead = taken ++ rest ∧
    twin.stream.unscan.ahead = taken ++ other
  left : session.stream.NoEof
  right : twin.stream.NoEof
  knows : ∀ declaration, session.store.Knows declaration → twin.store.Knows declaration

/-- The cursor is past the lexemes before the rest, and cannot be put back to them. -/
def Session.Gone (rest : List Lexeme) (session : Session Catalogue) : Prop :=
  session.stream.reach ≤ rest.length

namespace Shares

variable {rest other : List Lexeme} {session twin : Session Catalogue} {checks : Checks}

theorem ofToken {taken : List Lexeme} (here : session.At (taken ++ rest))
    (there : twin.At (taken ++ other)) (telling : significant taken ≠ [])
    (knows : ∀ declaration, session.store.Knows declaration → twin.store.Knows declaration) :
    session.stream.token.1.Alike anywhere twin.stream.token.1 ∧
      Shares rest other ⟨session.stream.token.2, session.store⟩
        ⟨twin.stream.token.2, twin.store⟩ := by
  have left := here.alike
  have right := there.alike
  rw [significant_append telling] at left right
  obtain ⟨lexeme, others, found⟩ := List.exists_cons_of_ne_nil telling
  refine ⟨⟨?_, trivial⟩, ⟨others, ?_, ?_⟩, ⟨significant taken, ?_, ?_⟩, here.noEof.token,
    there.noEof.token, knows⟩
  · rw [Stream.token_lexeme, Stream.token_lexeme, firstLexeme, firstLexeme, left, right, found]
    rfl
  · rw [Stream.token_ahead, left, found]
    rfl
  · rw [Stream.token_ahead, right, found]
    rfl
  · rw [Stream.token_unscan_ahead here.noEof, left]
  · rw [Stream.token_unscan_ahead there.noEof, right]

theorem token (shares : Shares rest other session twin)
    (kept : ¬ Session.Gone rest ⟨session.stream.token.2, session.store⟩) :
    session.stream.token.1.Alike anywhere twin.stream.token.1 ∧
      Shares rest other ⟨session.stream.token.2, session.store⟩
        ⟨twin.stream.token.2, twin.store⟩ := by
  obtain ⟨taken, left, right⟩ := shares.ahead
  refine ofToken ⟨by rw [left], shares.left⟩ ⟨by rw [right], shares.right⟩ ?_ shares.knows
  -- With nothing but trivia before the rest, the token would be the first one of the rest.
  intro silent
  apply kept
  change session.stream.token.2.unscan.ahead.length ≤ rest.length
  rw [Stream.token_unscan_ahead shares.left, left, significant_append_of_silent silent]
  exact (significant_suffix rest).length_le

theorem unscan (shares : Shares rest other session twin) :
    Shares rest other ⟨session.stream.unscan, session.store⟩ ⟨twin.stream.unscan, twin.store⟩ where
  ahead := shares.back
  back := by simpa only [Stream.unscan_unscan] using shares.back
  left := shares.left.unscan
  right := shares.right.unscan
  knows := shares.knows

/-- A token that is only looked at is read and put back, which leaves the reach as it is. -/
theorem peek (shares : Shares rest other session twin)
    (kept : ¬ Session.Gone rest ⟨session.stream.peek.2, session.store⟩) :
    session.stream.peek.1.Alike anywhere twin.stream.peek.1 ∧
      Shares rest other ⟨session.stream.peek.2, session.store⟩
        ⟨twin.stream.peek.2, twin.store⟩ := by
  have unpassed : ¬ Session.Gone rest ⟨session.stream.token.2, session.store⟩ := by
    intro gone
    apply kept
    change session.stream.token.2.unscan.reach ≤ rest.length
    rw [Stream.unscan_reach]
    exact gone
  obtain ⟨alike, shared⟩ := shares.token unpassed
  exact ⟨alike, shared.unscan⟩

theorem scan (shares : Shares rest other session twin)
    (kept : ¬ Session.Gone rest ⟨session.stream.scan.2, session.store⟩) :
    session.stream.next = twin.stream.next ∧
      Shares rest other ⟨session.stream.scan.2, session.store⟩
        ⟨twin.stream.scan.2, twin.store⟩ := by
  obtain ⟨taken, left, right⟩ := shares.ahead
  have back := Stream.scan_unscan_ahead shares.left
  have again := Stream.scan_unscan_ahead shares.right
  cases taken with
  | nil =>
    -- The step would go over the first lexeme of the rest.
    refine absurd ?_ kept
    change session.stream.scan.2.unscan.ahead.length ≤ rest.length
    rw [back, left]
    exact Nat.le_refl _
  | cons lexeme taken =>
    refine ⟨by rw [Stream.next, Stream.next, left, right]; rfl, ⟨taken, ?_, ?_⟩,
      ⟨lexeme :: taken, back.trans left, again.trans right⟩, shares.left.scan, shares.right.scan,
      shares.knows⟩
    · simp only [Stream.scan_ahead, left]
      rfl
    · simp only [Stream.scan_ahead, right]
      rfl

theorem subtag (shares : Shares rest other session twin)
    (kept : ¬ Session.Gone rest ⟨session.stream.subtag.2, session.store⟩) :
    session.stream.subtag.1.Alike anywhere twin.stream.subtag.1 ∧
      Shares rest other ⟨session.stream.subtag.2, session.store⟩
        ⟨twin.stream.subtag.2, twin.store⟩ := by
  have inside : ¬ Session.Gone rest ⟨session.stream.scan.2, session.store⟩ :=
    fun gone => kept (Nat.le_trans session.stream.subtag_reach_le_scan gone)
  obtain ⟨next, stepped⟩ := shares.scan inside
  by_cases goesOn : ContinuesTag session.stream.next
  · by_cases joins : session.stream.next = Lexeme.hyphen
    · rw [Stream.subtag_hyphen joins] at kept ⊢
      rw [Stream.subtag_hyphen (next ▸ joins)]
      obtain ⟨again, twice⟩ := stepped.scan kept
      refine ⟨?_, twice⟩
      simp only at again
      rw [again]
      split
      · exact .piece _
      · exact .broken ⟨again, trivial⟩
    · rw [Stream.subtag_negative goesOn joins, next,
        Stream.subtag_negative (next ▸ goesOn) (next ▸ joins)]
      exact ⟨.piece _, stepped⟩
  · rw [Stream.subtag_absent goesOn, Stream.subtag_absent (next ▸ goesOn)]
    exact ⟨.absent trivial, stepped.unscan⟩

theorem find (shares : Shares rest other session twin) {kind : EntityKind} {iri : Iri}
    {entity : Entity kind} {store : Catalogue}
    (found : Store.find kind iri session.store = (some entity, store)) :
    ∃ after, Store.find kind iri twin.store = (some entity, after) ∧
      Shares rest other ⟨session.stream, store⟩ ⟨twin.stream, after⟩ := by
  obtain ⟨rfl, listed⟩ := Catalogue.find_some found
  have grows := Catalogue.grows_find found
  obtain ⟨after, also⟩ :=
    Catalogue.find_of_knows (shares.knows _ (grows.knows_of_lists listed))
  have growing := Catalogue.grows_find also
  refine ⟨after, also, shares.ahead, shares.back, shares.left, shares.right, ?_⟩
  intro declaration known
  rw [growing.knows_iff]
  exact shares.knows _ ((grows.knows_iff _).mp known)

theorem answer (shares : Shares rest other session twin) (query : Query)
    {reply : Signature.Reply query} {after : Session Catalogue}
    (answered : Session.answer checks query session = (.ok reply, after))
    (kept : ¬ Session.Gone rest after) :
    ∃ again final, Session.answer checks query twin = (.ok again, final) ∧
      query.Alike anywhere reply again ∧ Shares rest other after final := by
  cases query with
  | token =>
    obtain ⟨same, rfl⟩ := Prod.mk.inj answered
    obtain rfl := Except.ok.inj same
    obtain ⟨alike, shared⟩ := shares.token kept
    exact ⟨_, _, rfl, alike, shared⟩
  | peek =>
    obtain ⟨same, rfl⟩ := Prod.mk.inj answered
    obtain rfl := Except.ok.inj same
    obtain ⟨alike, shared⟩ := shares.peek kept
    exact ⟨_, _, rfl, alike, shared⟩
  | unscan =>
    obtain ⟨same, rfl⟩ := Prod.mk.inj answered
    exact ⟨_, _, rfl, rfl, shares.unscan⟩
  | here =>
    obtain ⟨same, rfl⟩ := Prod.mk.inj answered
    exact ⟨_, _, rfl, trivial, shares⟩
  | subtag =>
    obtain ⟨same, rfl⟩ := Prod.mk.inj answered
    obtain rfl := Except.ok.inj same
    obtain ⟨alike, shared⟩ := shares.subtag kept
    exact ⟨_, _, rfl, alike, shared⟩
  | find kind iri =>
    simp only [Session.answer] at answered ⊢
    rcases found : Store.find kind iri session.store with ⟨_ | entity, store⟩
    · simp [found] at answered
    · rw [found] at answered
      obtain ⟨same, rfl⟩ := Prod.mk.inj answered
      obtain rfl := Except.ok.inj same
      obtain ⟨later, also, shared⟩ := shares.find found
      exact ⟨entity, ⟨twin.stream, later⟩, by rw [also], rfl, shared⟩
  | checkIri text =>
    obtain ⟨passed, rfl⟩ := Prod.mk.inj answered
    exact ⟨reply, twin, by rw [Session.answer, passed], rfl, shares⟩
  | checkTag tag =>
    obtain ⟨passed, rfl⟩ := Prod.mk.inj answered
    exact ⟨reply, twin, by rw [Session.answer, passed], rfl, shares⟩
  | report event =>
    obtain ⟨same, rfl⟩ := Prod.mk.inj answered
    exact ⟨_, _, rfl, rfl, shares⟩

end Shares

/-! ## Constructs -/

section

variable {α β : Type} {rest other : List Lexeme} {session twin after : Session Catalogue}
  {checks : Checks}

/-- A reading that keeps the rest out of sight goes alike before another rest. -/
theorem Reads.replay {same : α → β → Prop} {reading : Reading α} {again : Reading β} {value : α}
    (read : Reads checks reading session value after)
    (alike : Program.Alike anywhere (Query.Alike anywhere) same reading again)
    (shares : Shares rest other session twin) (kept : rest.length < after.stream.reach) :
    ∃ result final, Reads checks again twin result final ∧ same value result ∧
      Shares rest other after final := by
  -- Once the rest is in sight it stays so, since no answer lets the reach grow.
  refine alike.run_ok (Shares rest other) (Session.Gone rest) ?_ ?_ shares read
    (Nat.not_le.mpr kept)
  · intro query state gone
    exact Nat.le_trans (Session.answer_reach_le checks query state) gone
  · intro query state twin reply after shares answered inside
    exact shares.answer query answered inside

theorem Program.Alike.afterToken {same : α → β → Prop} {next : Scanned → Reading α}
    {onward : Scanned → Reading β}
    (alike : Program.Alike anywhere (Query.Alike anywhere) same (Reading.token >>= next)
      (Reading.token >>= onward)) {first second : Scanned} (close : first.Alike anywhere second) :
    Program.Alike anywhere (Query.Alike anywhere) same (next first) (onward second) := by
  change Program.Alike anywhere (Query.Alike anywhere) same (.ask .token _ next)
    (.ask .token _ onward) at alike
  cases alike with
  | ask _ tail => exact tail first second close
  | spent _ spent => exact .spent _ (spent.2 first)

/-- A construct that begins with a token is read again wherever its lexemes stand, since trivia
before the token makes no difference. -/
theorem Reads.replayFrom {same : α → β → Prop} {next : Scanned → Reading α}
    {onward : Scanned → Reading β} {taken : List Lexeme} {value : α}
    (read : Reads checks (Reading.token >>= next) session value after)
    (alike : Program.Alike anywhere (Query.Alike anywhere) same (Reading.token >>= next)
      (Reading.token >>= onward))
    (here : session.At (taken ++ rest)) (there : twin.At (taken ++ other))
    (telling : significant taken ≠ [])
    (knows : ∀ declaration, session.store.Knows declaration → twin.store.Knows declaration)
    (kept : rest.length < after.stream.reach) :
    ∃ result final, Reads checks (Reading.token >>= onward) twin result final ∧
      same value result ∧ Shares rest other after final := by
  obtain ⟨scanned, between, scan, read⟩ := Reads.bind_iff.mp read
  obtain ⟨rfl, rfl⟩ := Reads.token_iff.mp scan
  obtain ⟨first, shares⟩ := Shares.ofToken here there telling knows
  obtain ⟨result, final, again, given, shared⟩ := read.replay (alike.afterToken first) shares kept
  exact ⟨result, final, Reads.bind_iff.mpr ⟨_, _, Reads.token_iff.mpr ⟨rfl, rfl⟩, again⟩, given,
    shared⟩

end

/-! ## Statements -/

section

variable {rest other : List Lexeme} {session twin after : Session Catalogue}
  {checks : Checks} {scope wide : Scope}

theorem Stream.Closed.length_lt_reach {stream : Stream} (closed : stream.Closed) :
    stream.ahead.length < stream.reach := by
  obtain ⟨literal, before, last⟩ := closed
  simp [reach, unscan, last]

theorem statement?_wider (wider : scope.Within wide)
    (enough : session.stream.ahead.length < scope.limit) :
    (Grammar.statement? wide).run (Session.reader checks) session =
      (Grammar.statement? scope).run (Session.reader checks) session := by
  have equal : ∀ left right, Option.Rel (Statement.Alike Eq) left right → left = right := by
    intro left right related
    cases related with
    | none => rfl
    | some alike =>
      cases alike with
      | declaration same => rw [same]
      | assertion annotated => rfl
  exact ((statement?_alike wider).imp equal).run_eq Query.alike_refl
    fun _ _ => (statement?_bounded scope).unmet enough

theorem Reads.statement_again {statement : Statement} {taken : List Lexeme}
    (read : Reads checks (Grammar.statement? scope) session (some statement) after)
    (here : session.At (taken ++ after.stream.ahead)) (telling : significant taken ≠ [])
    (there : twin.At (taken ++ other)) (same : wide.prefixes = scope.prefixes)
    (enough : twin.stream.ahead.length < wide.limit)
    (knows : ∀ declaration, session.store.Knows declaration → twin.store.Knows declaration) :
    ∃ found final, Reads checks (Grammar.statement? wide) twin (some found) final ∧
      statement.Alike anywhere found ∧ final.stream.ahead = other := by
  -- The bounds of both runs may differ, so a third one has the greater bound.
  have wider : scope.Within ⟨scope.prefixes, max scope.limit wide.limit⟩ :=
    ⟨rfl, Nat.le_max_left ..⟩
  have narrower : wide.Within ⟨scope.prefixes, max scope.limit wide.limit⟩ :=
    ⟨same, Nat.le_max_right ..⟩
  obtain ⟨result, final, again, given, shares⟩ := Reads.replayFrom read (statement?_alike wider)
    here there telling knows read.statement_enclosed.1.length_lt_reach
  cases given with
  | @some _ found alike =>
    have again : Reads checks (Grammar.statement? wide) twin (some found) final :=
      (statement?_wider narrower enough).symm.trans again
    refine ⟨found, final, again, alike, ?_⟩
    obtain ⟨left, ended, final⟩ := shares.ahead
    obtain rfl : left = [] := by simpa using ended
    exact final

end

/-! ## The preamble -/

section

variable {rest other input : List Lexeme} {session twin after : Session Catalogue}
  {checks : Checks}

theorem Reads.token_again {scanned : Scanned} (read : Reads checks Reading.token session scanned after)
    (shares : Shares rest other session twin) (kept : rest.length < after.stream.reach) :
    ∃ again final, Reads checks Reading.token twin again final ∧ again.lexeme = scanned.lexeme ∧
      Shares rest other after final := by
  obtain ⟨again, final, token, alike, shared⟩ := read.replay Reading.Alike.token shares kept
  exact ⟨again, final, token, alike.lexeme.symm, shared⟩

theorem Reads.expect_again {token : Token} (read : Reads checks (Reading.expect token) session () after)
    (shares : Shares rest other session twin) (kept : rest.length < after.stream.reach) :
    ∃ final, Reads checks (Reading.expect token) twin () final ∧ Shares rest other after final := by
  obtain ⟨_, final, again, -, shared⟩ := read.replay (Reading.Alike.expect token) shares kept
  exact ⟨final, again, shared⟩

theorem Sees.reach_le {token : Token} (sees : Sees checks token session after) :
    after.stream.reach ≤ session.stream.reach := by
  obtain ⟨scanned, between, scan, -, back⟩ := sees
  exact Nat.le_trans back.reach_le scan.reach_le

theorem Sees.again {token : Token} (sees : Sees checks token session after)
    (shares : Shares rest other session twin) (kept : rest.length < after.stream.reach) :
    ∃ final, Sees checks token twin final ∧ Shares rest other after final := by
  obtain ⟨scanned, between, scan, kind, back⟩ := sees
  obtain ⟨again, middle, token, same, shared⟩ :=
    scan.token_again shares (Nat.lt_of_lt_of_le kept back.reach_le)
  obtain ⟨_, final, unscan, -, shared⟩ := back.replay Reading.Alike.unscan shared kept
  exact ⟨final, ⟨again, middle, token, by rw [Scanned.token, same]; exact kind, unscan⟩, shared⟩

theorem Binds.reach_le {labels : List String} {bindings : List Binding}
    (binds : Binds checks labels session bindings after) :
    after.stream.reach ≤ session.stream.reach := by
  induction binds with
  | none => exact Nat.le_refl _
  | more sees read _ ih => exact Nat.le_trans ih (Nat.le_trans read.reach_le sees.reach_le)

theorem Binds.again {labels : List String} {bindings : List Binding}
    (binds : Binds checks labels session bindings after)
    (shares : Shares rest other session twin) (kept : rest.length < after.stream.reach) :
    ∃ final, Binds checks labels twin bindings final ∧ Shares rest other after final := by
  induction binds generalizing twin with
  | none => exact ⟨twin, .none, shares⟩
  | more sees read others ih =>
    have later := Nat.lt_of_lt_of_le kept others.reach_le
    obtain ⟨seen, sight, shared⟩ := sees.again shares (Nat.lt_of_lt_of_le later read.reach_le)
    obtain ⟨binding, bound, again, rfl, shared⟩ := read.replay (prefixBinding_alike _) shared later
    obtain ⟨final, more, shared⟩ := ih shared kept
    exact ⟨final, .more sight again more, shared⟩

theorem Shares.ahead_eq (shares : Shares rest other session twin)
    (same : session.stream.ahead = rest) : twin.stream.ahead = other := by
  obtain ⟨taken, left, right⟩ := shares.ahead
  obtain rfl : taken = [] := by simpa [same] using left
  exact right

/-- The name of a version is read again. Where there is none, what follows is only looked at. -/
theorem ReadsVersion.again {version : Option Iri}
    (versioned : ReadsVersion checks session version after) (noEof : session.stream.NoEof)
    (passed : session.stream.ahead.length < session.stream.reach) :
    ∃ rest, (match version with
        | none => session.stream.ahead = rest
        | some version => Takes ⟨.iri, version.render⟩ session.stream.ahead rest) ∧
      after.At rest ∧ rest.length < session.stream.reach ∧
      ∀ {other : List Lexeme} {twin : Session Catalogue}, Shares rest other session twin →
        (firstLexeme other).token ≠ .iri →
        ∃ final, ReadsVersion checks twin version final ∧ final.At other := by
  have here : session.At session.stream.ahead := ⟨rfl, noEof⟩
  cases versioned with
  | absent look single =>
    -- Here the lexemes of the two inputs differ already, so the look is taken anew.
    refine ⟨session.stream.ahead, rfl, (look.peek_at here).2, passed, ?_⟩
    intro other twin shares foreign
    have there : twin.At other := ⟨by rw [shares.ahead_eq rfl], shares.right⟩
    obtain ⟨next, final, peek, sight, finalAt⟩ := Reads.peek_total there
    exact ⟨final, .absent peek (by rw [Scanned.token, sight]; exact foreign), finalAt⟩
  | @present next consumed peeked _ version look another consume spelled allowed =>
    obtain ⟨sight, peekedAt⟩ := look.peek_at here
    have same := (consume.token_first peekedAt).trans sight.symm
    have kind : consumed.token = .iri := by rw [Scanned.token, same]; exact another
    have shorter := consume.token_shorter (by simp [kind])
    have takes : Takes ⟨.iri, next.literal⟩ session.stream.ahead after.stream.ahead := by
      have taken := consume.takes_token peekedAt kind (by simp)
      rwa [Scanned.literal, same] at taken
    rw [spelled] at takes
    refine ⟨after.stream.ahead, takes, consume.atItself peekedAt, ?_, ?_⟩
    · have fewer := look.reach_le
      have fewest := consume.reach_le
      omega
    · intro other twin shares _
      have kept : after.stream.ahead.length < peeked.stream.reach := by
        have fewest := consume.reach_le
        omega
      obtain ⟨again, glanced, peek, alike, shared⟩ :=
        look.replay Reading.Alike.peek shares kept
      obtain ⟨taken, final, token, sameToken, ended⟩ := consume.token_again shared (by omega)
      refine ⟨final, .present peek ?_ token ?_ allowed, ?_⟩
      · rw [Scanned.token, ← alike.lexeme]
        exact another
      · rw [Scanned.literal, ← alike.lexeme]
        exact spelled
      · exact ⟨by rw [ended.ahead_eq rfl], ended.right⟩

theorem Heads.again {prefixes : Prefixes} {ontology : Ontology}
    (heads : Heads checks prefixes session ontology after) (here : session.At input) :
    ∃ rest, Spelling.Header ontology.iri ontology.version input rest ∧ after.At rest ∧
      rest.length < session.stream.reach ∧
      ∀ {other : List Lexeme} {twin : Session Catalogue}, Shares rest other session twin →
        (firstLexeme other).token ≠ .iri →
        ∃ final, Heads checks prefixes twin ontology final ∧ final.At other := by
  obtain ⟨seen, sees, read⟩ := heads
  obtain ⟨named, opened, begun, first, word, paren, scan, kind, written, allowed, versioned, same⟩ :=
    header_iff.mp read
  have seenAt := Recognition.sees_at sees here
  have namedAt := word.atItself seenAt
  have openedAt := paren.atItself namedAt
  have takes := scan.takes_token openedAt kind (by simp)
  rw [written] at takes
  have shorter := scan.token_shorter (by simp [kind])
  obtain ⟨rest, spelled, afterAt, kept, onward⟩ :=
    versioned.again (scan.noEof openedAt.noEof) (by omega)
  refine ⟨rest, ⟨_, _, ⟨_, Recognition.expect_mark word seenAt (by simp),
    Recognition.expect_mark paren namedAt (by simp)⟩, takes, spelled⟩, afterAt, ?_, ?_⟩
  · have chain := Nat.le_trans (Nat.le_trans scan.reach_le paren.reach_le)
      (Nat.le_trans word.reach_le sees.reach_le)
    omega
  · intro other twin shares foreign
    -- Each answer was given before the rest was reached, so the twin gives it as well.
    have reached := Nat.lt_of_lt_of_le kept scan.reach_le
    have entered := Nat.lt_of_lt_of_le reached paren.reach_le
    obtain ⟨sight, looks, shared⟩ := sees.again shares (Nat.lt_of_lt_of_le entered word.reach_le)
    obtain ⟨keyword, keyed, shared⟩ := word.expect_again shared entered
    obtain ⟨inside, parenthesis, shared⟩ := paren.expect_again shared reached
    obtain ⟨name, titled, token, alike, shared⟩ := scan.token_again shared kept
    obtain ⟨final, ended, finalAt⟩ := onward shared foreign
    refine ⟨final, ⟨sight, looks, header_iff.mpr ⟨keyword, inside, titled, name, keyed, parenthesis,
      token, ?_, ?_, allowed, ended, same⟩⟩, finalAt⟩
    · rw [Scanned.token, alike]
      exact kind
    · rw [Scanned.literal, alike]
      exact written

def Spelling.Opening (bindings : List Binding) (ontology : Ontology) (input rest : List Lexeme) :
    Prop :=
  ∃ middle, Spelling.Sequence Spelling.Bound bindings input middle ∧
    Spelling.Header ontology.iri ontology.version middle rest

theorem Spelling.Opening.isLocal {bindings : List Binding} {ontology : Ontology}
    (opening : Opening bindings ontology input rest) :
    Local (Opening bindings ontology) input rest := by
  obtain ⟨middle, bound, header⟩ := opening
  exact (bound.framed fun binding => binding.isLocal.framed).appendLocal header.isLocal

theorem Reads.preamble_again {prefixes : Prefixes} {limit : Nat} {ontology : Ontology}
    (read : Reads checks (Grammar.preamble prefixes [] limit) session ontology after)
    (enough : session.stream.ahead.length < limit) (begins : session.Begins input) :
    ∃ bindings opening rest, input = opening ++ rest ∧ after.At rest ∧
      (bindings.map (·.label)).Nodup ∧ ontology.prefixes = prefixes.override bindings ∧
      (∀ other, Spelling.Opening bindings ontology (opening ++ other) other) ∧
      ∀ {other : List Lexeme} {twin : Session Catalogue} {bound : Nat},
        twin.Begins (opening ++ other) →
        (∀ declaration, session.store.Knows declaration → twin.store.Knows declaration) →
        twin.stream.ahead.length < bound → (firstLexeme other).token ≠ .iri →
        ∃ final, Reads checks (Grammar.preamble prefixes [] bound) twin ontology final ∧
          final.At other := by
  obtain ⟨bindings, bound, binds, heads⟩ := (preamble_iff enough).mp read
  obtain ⟨middle, sequence, boundAt⟩ := Recognition.binds_spelled binds begins.atInput
  obtain ⟨rest, spelled, afterAt, kept, onward⟩ := heads.again boundAt
  obtain ⟨opening, parts, -, anywhere⟩ := Spelling.Opening.isLocal ⟨middle, sequence, spelled⟩
  -- The second run starts without a last step, as the first one does, so both can be put back alike.
  refine ⟨bindings, opening, rest, parts, afterAt, binds.fresh.2, heads.prefixes_eq, anywhere, ?_⟩
  intro other twin limit again knows roomy foreign
  have shares : Shares rest other session twin := by
    refine ⟨⟨opening, begins.ahead.trans parts, again.ahead⟩, ⟨opening, ?_, ?_⟩, begins.noEof,
      again.noEof, knows⟩
    · rw [begins.unscan, begins.ahead, parts]
    · rw [again.unscan, again.ahead]
  obtain ⟨reached, more, shared⟩ := binds.again shares kept
  obtain ⟨final, headed, finalAt⟩ := onward shared foreign
  exact ⟨final, (preamble_iff roomy).mpr ⟨bindings, reached, more, headed⟩, finalAt⟩

end

end OwlFunctional
