import OwlFunctional.Proofs.Reordering

/-! Reading a body in two parts.

What was read leaves nothing behind but the catalogue. So the statements that follow are read as they
would be in a document of their own, with the same abbreviations and the same header, into that
catalogue.
-/

set_option autoImplicit false

namespace OwlFunctional

open Spelling (significant_append significant_append_of_silent)

/-! ## The same catalogue before another rest -/

theorem Session.answer_store {σ : Type} [Store σ] (checks : Checks) (query : Query)
    {session twin : Session σ} (same : twin.store = session.store) :
    (answer checks query twin).2.store = (answer checks query session).2.store := by
  cases query with
  | find kind iri =>
    simp only [answer, same]
    split <;> rfl
  | _ => exact same

/-- Before different rests the same lexemes lie ahead of two sessions with the same catalogue. -/
structure Mirrors (rest other : List Lexeme) (session twin : Session Catalogue) : Prop where
  shares : Shares rest other session twin
  store : twin.store = session.store

section

variable {rest other : List Lexeme} {session twin after : Session Catalogue} {checks : Checks}

theorem Mirrors.answer (mirrors : Mirrors rest other session twin) (query : Query)
    {reply : Signature.Reply query}
    (answered : Session.answer checks query session = (.ok reply, after))
    (kept : ¬ Session.Gone rest after) :
    ∃ again final, Session.answer checks query twin = (.ok again, final) ∧
      query.Alike anywhere reply again ∧ Mirrors rest other after final := by
  obtain ⟨again, final, replied, alike, shares⟩ := mirrors.shares.answer query answered kept
  have store := Session.answer_store checks query mirrors.store
  rw [replied, answered] at store
  exact ⟨again, final, replied, alike, shares, store⟩

theorem Reads.mirror {α β : Type} {same : α → β → Prop} {next : Scanned → Reading α}
    {onward : Scanned → Reading β} {taken : List Lexeme} {value : α}
    (read : Reads checks (Reading.token >>= next) session value after)
    (alike : Program.Alike anywhere (Query.Alike anywhere) same (Reading.token >>= next)
      (Reading.token >>= onward))
    (here : session.At (taken ++ rest)) (there : twin.At (taken ++ other))
    (telling : significant taken ≠ []) (store : twin.store = session.store)
    (kept : rest.length < after.stream.reach) :
    ∃ result final, Reads checks (Reading.token >>= onward) twin result final ∧
      same value result ∧ Mirrors rest other after final := by
  obtain ⟨scanned, between, scan, read⟩ := Reads.bind_iff.mp read
  obtain ⟨rfl, rfl⟩ := Reads.token_iff.mp scan
  obtain ⟨first, shares⟩ := Shares.ofToken here there telling fun _ known => store ▸ known
  have mirrors : Mirrors rest other _ _ := ⟨shares, store⟩
  have replayed : ∃ result final, Reads checks (onward twin.stream.token.1)
      ⟨twin.stream.token.2, twin.store⟩ result final ∧ same value result ∧
      Mirrors rest other after final := by
    refine (alike.afterToken first).run_ok (Mirrors rest other) (Session.Gone rest) ?_ ?_ mirrors
      read (Nat.not_le.mpr kept)
    · intro query state gone
      exact Nat.le_trans (Session.answer_reach_le checks query state) gone
    · intro query state twin reply after mirrors answered inside
      exact mirrors.answer query answered inside
  obtain ⟨result, final, again, given, mirrored⟩ := replayed
  exact ⟨result, final, Reads.bind_iff.mpr ⟨_, _, Reads.token_iff.mpr ⟨rfl, rfl⟩, again⟩, given,
    mirrored⟩

end

/-! ## Statements that were accepted -/

section

variable {rest other : List Lexeme} {session twin after last : Session Catalogue}
  {checks : Checks} {scope wide : Scope}

theorem Reads.statement_mirrored {statement : Statement} {taken : List Lexeme}
    (read : Reads checks (Grammar.statement? scope) session (some statement) after)
    (here : session.At (taken ++ after.stream.ahead)) (telling : significant taken ≠ [])
    (there : twin.At (taken ++ other)) (same : wide.prefixes = scope.prefixes)
    (enough : twin.stream.ahead.length < wide.limit) (store : twin.store = session.store) :
    ∃ found final, Reads checks (Grammar.statement? wide) twin (some found) final ∧
      statement.Alike anywhere found ∧ final.stream.ahead = other ∧ final.store = after.store := by
  -- The bounds of both runs may differ, so a third one has the greater bound.
  have wider : scope.Within ⟨scope.prefixes, max scope.limit wide.limit⟩ :=
    ⟨rfl, Nat.le_max_left ..⟩
  have narrower : wide.Within ⟨scope.prefixes, max scope.limit wide.limit⟩ :=
    ⟨same, Nat.le_max_right ..⟩
  obtain ⟨result, final, again, given, mirrors⟩ := Reads.mirror read (statement?_alike wider)
    here there telling store read.statement_enclosed.1.length_lt_reach
  cases given with
  | @some _ found alike =>
    have again : Reads checks (Grammar.statement? wide) twin (some found) final :=
      (statement?_wider narrower enough).symm.trans again
    exact ⟨found, final, again, alike, mirrors.shares.ahead_eq rfl, mirrors.store⟩

theorem Reads.statement_last {statement : Statement}
    (read : Reads checks (Grammar.statement? scope) session (some statement) after) :
    ∃ before literal,
      session.stream.ahead = before ++ ⟨.closeParen, literal⟩ :: after.stream.ahead := by
  obtain ⟨⟨literal, position, last⟩, -⟩ := read.statement_enclosed
  obtain ⟨next, between, scan, read⟩ := Reads.bind_iff.mp read
  obtain ⟨rfl, rfl⟩ := Reads.token_iff.mp scan
  -- The cursor could step back over the parenthesis, which was ahead at the start.
  have back := read.unscan_suffix.trans session.stream.token_unscan_suffix
  have step : after.stream.unscan.ahead = ⟨.closeParen, literal⟩ :: after.stream.ahead := by
    simp [Stream.unscan, last]
  rw [step] at back
  obtain ⟨before, same⟩ := back
  exact ⟨before, literal, same.symm⟩

theorem Accepted.mirrored {accepted : List (Statement × Session Catalogue)}
    (chain : Accepted checks scope session accepted last) (noEof : session.stream.NoEof) :
    ∃ taken, session.stream.ahead = taken ++ last.stream.ahead ∧
      (taken = [] ∨ ∃ before literal, taken = before ++ [⟨.closeParen, literal⟩]) ∧
      ∀ {other : List Lexeme} {twin : Session Catalogue} {wide : Scope},
        twin.At (taken ++ other) → twin.store = session.store →
        wide.prefixes = scope.prefixes → twin.stream.ahead.length < wide.limit →
        ∃ others final, Accepted checks wide twin others final ∧ final.At other ∧
          final.store = last.store := by
  induction chain with
  | none => exact ⟨[], rfl, .inl rfl, fun there store _ _ => ⟨[], _, .none, there, store⟩⟩
  | @more statement others session read written last first wrote chain ih =>
    have here : session.At session.stream.ahead := ⟨rfl, noEof⟩
    have unmoved := write_unmoved wrote
    obtain ⟨taken, parts, telling, -⟩ := (Recognition.statement?_spelled first here).1.isLocal
    obtain ⟨before, literal, ends⟩ := first.statement_last
    obtain ⟨later, splits, closes, onward⟩ := ih (unmoved ▸ first.noEof noEof)
    rw [unmoved] at splits
    refine ⟨taken ++ later, by rw [parts, splits, List.append_assoc], .inr ?_, ?_⟩
    · rcases closes with rfl | ⟨between, mark, rfl⟩
      · refine ⟨before, literal, ?_⟩
        rw [parts] at ends
        simpa [List.append_cancel_right_eq] using
          List.append_cancel_right (ends.trans (List.append_cons ..))
      · exact ⟨taken ++ between, mark, (List.append_assoc ..).symm⟩
    · intro other twin wide there store same enough
      rw [List.append_assoc] at there
      obtain ⟨found, final, again, alike, ahead, stored⟩ :=
        first.statement_mirrored (parts ▸ here) telling there same enough store
      obtain ⟨takes, -⟩ := wrote_iff.mp wrote
      rw [← stored] at takes
      have rewrote : (Grammar.write found).run (Session.writer checks) final =
          (.ok (), { final with store := written.store }) :=
        Acceptance.run_write_of_sameContent (.of_alike alike) takes
      have shorter := again.statement_enclosed.2
      obtain ⟨more, ended, chained, endedAt, left⟩ := @onward other ⟨final.stream, written.store⟩
        wide ⟨by rw [ahead], again.noEof there.noEof⟩ rfl same (Nat.lt_trans shorter enough)
      exact ⟨_, ended, .more again rewrote chained, endedAt, left⟩

end

/-! ## What follows -/

section

variable {σ α : Type} [Store σ] {checks : Checks} {session twin last : Session σ}
  {input : List Lexeme} {scope : Scope}

omit [Store σ] in
/-- Once a token was read, two sessions before the same input cannot be told apart: what they read
before it can be put back in neither of them. -/
theorem Session.At.laidAlike (here : session.At input) (there : twin.At input)
    (store : session.store = twin.store) :
    Session.LaidAlike ⟨session.stream.token.2, session.store⟩
      ⟨twin.stream.token.2, twin.store⟩ where
  ahead := by simpa [here.alike, there.alike] using LaidAlike.refl (significant input).tail
  back := by
    simpa [Stream.token_unscan_ahead here.noEof, Stream.token_unscan_ahead there.noEof, here.alike,
      there.alike] using LaidAlike.refl (significant input)
  left := here.noEof.token
  right := there.noEof.token
  store := store

theorem Program.Alike.run_at {same : α → α → Prop}
    {refused other : Signature.Refusal (Command.query .token) → SyntaxError}
    {next onward : Signature.Reply (Command.query .token) → Writing α}
    (alike : Writing.Alike anywhere same (.ask (.query .token) refused next)
      (.ask (.query .token) other onward))
    (here : session.At input) (there : twin.At input) (store : session.store = twin.store)
    (unmet : ∀ error after, (Program.ask (.query .token) refused next : Writing α).run
      (Session.writer checks) session = (.error error, after) → error.cause ≠ .limitReached) :
    Agrees same (SyntaxError.Alike anywhere) Session.LaidAlike
      ((Program.ask (.query .token) refused next : Writing α).run (Session.writer checks) session)
      ((Program.ask (.query .token) other onward : Writing α).run (Session.writer checks) twin) := by
  have close : session.stream.token.1.Alike anywhere twin.stream.token.1 := by
    refine ⟨?_, trivial⟩
    rw [Stream.token_lexeme, Stream.token_lexeme, firstLexeme, firstLexeme, here.alike,
      there.alike]
  cases alike with
  | ask _ tail =>
    exact (tail _ _ close).run Session.LaidAlike (fun command _ _ alike => alike.command command)
      (here.laidAlike there store) unmet
  | spent _ spent =>
    obtain ⟨error, after, failed, met⟩ := spent.run (Session.writer checks) session
    exact absurd met (unmet error after failed)

end

/-! ## Where a body ends -/

namespace Lexeme

theorem tokensIn_eq_nil_iff {input : List Lexeme} : tokensIn input = [] ↔ significant input = [] := by
  simp [tokensIn, significant, List.filter_eq_nil_iff]

theorem tokensIn_significant (input : List Lexeme) :
    tokensIn (significant input) = tokensIn input := by
  obtain ⟨silent, none, same⟩ := Spelling.exists_silent input
  conv_rhs => rw [same]
  simpa [tokensIn, List.filter_append] using tokensIn_eq_nil_iff.mpr none

end Lexeme

open Lexeme (tokensIn tokensIn_eq_nil_iff tokensIn_significant)
open Spelling (Closes)

theorem Spelling.Closes.length_tokensIn {closing after : List Lexeme} (closes : Closes closing after)
    (ended : significant after = []) : (tokensIn closing).length = 1 := by
  obtain ⟨literal, takes⟩ := closes
  rw [Takes.tokensIn takes, tokensIn_eq_nil_iff.mpr ended]
  rfl

/-- Accepted statements up to the closing of an ontology take all of its body, except for the trivia
at its end. -/
theorem body_taken {body closing taken left : List Lexeme}
    (same : significant (taken ++ left) = significant (body ++ closing))
    (ends : taken = [] ∨ ∃ before literal, taken = before ++ [⟨.closeParen, literal⟩])
    (one : (tokensIn closing).length = 1) (also : (tokensIn left).length = 1) :
    ∃ gap, significant gap = [] ∧
      ∀ rest, significant (body ++ rest) = significant (taken ++ (gap ++ rest)) := by
  have append (first second : List Lexeme) :
      tokensIn (first ++ second) = tokensIn first ++ tokensIn second := List.filter_append ..
  -- Both ways to split the document have the same tokens, and one of them is in the last part.
  have counts : (tokensIn taken).length = (tokensIn body).length := by
    have whole := congrArg (List.length ∘ tokensIn) same
    simp only [Function.comp_apply, tokensIn_significant, append, List.length_append] at whole
    omega
  by_cases silent : significant body = []
  · rw [tokensIn_eq_nil_iff.mpr silent, List.length_nil, List.length_eq_zero_iff,
      tokensIn_eq_nil_iff] at counts
    refine ⟨[], rfl, fun rest => ?_⟩
    rw [significant_append_of_silent silent, significant_append_of_silent counts, List.nil_append]
  · have telling : significant taken ≠ [] := by
      intro none
      rw [tokensIn_eq_nil_iff.mpr none, List.length_nil, eq_comm, List.length_eq_zero_iff] at counts
      exact silent (tokensIn_eq_nil_iff.mp counts)
    rw [significant_append telling, significant_append silent] at same
    rcases List.append_eq_append_iff.mp same with ⟨gap, parts, rfl⟩ | ⟨gap, parts, rfl⟩
    · have none : significant gap = [] := by
        rw [append, List.length_append, one] at also
        exact tokensIn_eq_nil_iff.mp (List.length_eq_zero_iff.mp (by omega))
      refine ⟨gap, none, fun rest => ?_⟩
      rw [significant_append silent, significant_append telling, parts, List.append_assoc]
    · -- The statements end with a parenthesis, so they take none of the trivia after the body.
      have none : tokensIn gap = [] := by
        rw [append, List.length_append, also] at one
        exact List.length_eq_zero_iff.mp (by omega)
      obtain rfl : gap = [] := by
        obtain rfl | ⟨before, literal, rfl⟩ := ends
        · simp at telling
        · rcases List.eq_nil_or_concat gap with same | ⟨trivia, last, rfl⟩
          · exact same
          · obtain ⟨skipped, whole⟩ := significant_suffix (before ++ [⟨.closeParen, literal⟩])
            rw [parts, List.concat_eq_append, ← List.append_assoc, ← List.append_assoc] at whole
            obtain rfl := List.singleton_inj.mp (List.append_inj_right' whole rfl)
            simp [tokensIn, Token.isTrivia] at none
      refine ⟨[], rfl, fun rest => ?_⟩
      rw [significant_append silent, significant_append telling, parts, List.append_nil,
        List.nil_append]

namespace Document

section

variable {σ : Type} [Store σ] {checks : Checks} {session twin last : Session σ}
  {input : List Lexeme} {ontology : Ontology}

theorem statements_run_accepted {accepted : List (Statement × Session σ)}
    (chain : Accepted checks ⟨ontology.prefixes, limit session⟩ session accepted last) :
    (statements ontology session).run (Session.writer checks) session =
      (statements ontology last).run (Session.writer checks) last := by
  obtain ⟨few, le, fits, same⟩ := chain.body_run (Nat.lt_succ_self session.stream.ahead.length)
  have wider : Scope.Within ⟨ontology.prefixes, limit last⟩ ⟨ontology.prefixes, limit session⟩ :=
    ⟨rfl, Nat.le_trans fits le⟩
  -- With the bounds of the whole body the rest of it is read as with its own ones.
  have alike : Writing.Alike Eq Eq (statements ontology last)
      (Grammar.body ⟨ontology.prefixes, limit session⟩ few >>= fun _ =>
        Writing.ofReading Grammar.ending) :=
    Program.Alike.bind (body_alike wider fits) fun _ _ _ => Writing.ofReading_alike ending_alike
  rw [← alike.run_eq Command.alike_refl fun _ _ => statements_unmet]
  change (Grammar.body _ _ >>= fun _ => Writing.ofReading Grammar.ending).run _ _ = _
  rw [Program.run_bind, Program.run_bind, ← same]
  rfl

theorem statements_run_at (here : session.At input) (there : twin.At input)
    (store : session.store = twin.store) :
    Agrees Eq (SyntaxError.Alike anywhere) Session.LaidAlike
      ((statements ontology session).run (Session.writer checks) session)
      ((statements ontology twin).run (Session.writer checks) twin) := by
  -- The bounds of the two may differ, so a third run has the greater bound.
  generalize most : max session.stream.ahead.length twin.stream.ahead.length = bound
  have wider : Scope.Within ⟨ontology.prefixes, limit session⟩ ⟨ontology.prefixes, bound + 1⟩ :=
    ⟨rfl, Nat.succ_le_succ (most ▸ Nat.le_max_left ..)⟩
  have also : Scope.Within ⟨ontology.prefixes, limit twin⟩ ⟨ontology.prefixes, bound + 1⟩ :=
    ⟨rfl, Nat.succ_le_succ (most ▸ Nat.le_max_right ..)⟩
  have same : (Grammar.statements ⟨ontology.prefixes, bound + 1⟩).run (Session.writer checks) twin =
      (statements ontology twin).run (Session.writer checks) twin :=
    (statements_alike also).run_eq Command.alike_refl fun _ _ => statements_unmet
  rw [← same]
  exact Program.Alike.run_at (statements_alike wider) here there store fun _ _ => statements_unmet

end

theorem firstLexeme_append {first rest : List Lexeme} {token : Token}
    (one : (firstLexeme first).token ≠ token) (also : (firstLexeme rest).token ≠ token) :
    (firstLexeme (first ++ rest)).token ≠ token := by
  by_cases silent : significant first = []
  · rwa [firstLexeme, significant_append_of_silent silent]
  · obtain ⟨lexeme, others, found⟩ := List.exists_cons_of_ne_nil silent
    rw [firstLexeme, found] at one
    rwa [firstLexeme, significant_append silent, found]

variable {settings : Settings} {start after : Session Catalogue} {ontology : Ontology}
  {statements : List Statement} {bindings : List Binding} {opening body closing rest : List Lexeme}
  {twin : Session Catalogue}

/-- An accepted document with more statements in its body is read up to them, and what is there then
is what the accepted document left. -/
theorem Completes.exists_middle (completes : Completes settings start ontology statements after)
    (begins : start.Begins (opening ++ (body ++ closing)))
    (opens : Spelling.Opening bindings ontology opening [])
    (closes : ∃ left, Closes closing left ∧ significant left = []) :
    (∀ {rest : List Lexeme} {twin : Session Catalogue},
      twin.Begins (opening ++ (body ++ rest)) → twin.store = start.store →
      (firstLexeme (body ++ rest)).token ≠ .iri →
      ∃ middle accepted last, Reads settings.checks (preamble settings twin) twin ontology middle ∧
        Accepted settings.checks ⟨ontology.prefixes, limit middle⟩ middle accepted last ∧
        last.At rest ∧ last.store = after.store) ∧
    ∀ {rest : List Lexeme} {twin : Session Catalogue},
      twin.Begins (opening ++ rest) → twin.store = after.store →
      (firstLexeme rest).token ≠ .iri →
      ∃ middle, Reads settings.checks (preamble settings twin) twin ontology middle ∧
        middle.At rest ∧ middle.store = after.store := by
  obtain ⟨left, closes, ended⟩ := closes
  obtain ⟨read, chain, close, finish, rfl⟩ := completes
  obtain ⟨_, opened, inside, cut, middleAt, -, -, again, reopen⟩ :=
    read.preamble_again (Nat.lt_succ_self _) begins
  -- The opening that was read is the given one.
  have joined : opening ++ (body ++ closing) = opened ++ inside := cut
  obtain rfl : inside = body ++ closing := (again inside).unique (joined ▸ opens.before _)
  obtain rfl : opening = opened := List.append_cancel_right joined
  have untouched := read.store_of_looksUp (.preamble ..)
  obtain ⟨taken, splits, ends, onward⟩ := chain.mirrored middleAt.noEof
  obtain ⟨⟨_, -, lastAt⟩, keeps, -⟩ := Recognition.accepted_spelled chain middleAt
  have lastItself : Session.At _ _ := ⟨rfl, lastAt.noEof⟩
  have closed := Recognition.statement?_spelled close lastItself
  have exhausted := Recognition.ending_spelled finish (close.atItself lastItself)
  obtain ⟨gap, silent, taking⟩ := body_taken (splits ▸ middleAt.alike) ends
    (closes.length_tokensIn ended) (closed.length_tokensIn exhausted)
  rw [finish.store_of_looksUp .ending, close.closing_store]
  constructor
  · intro rest twin twinBegins stored foreign
    obtain ⟨again, reread, againAt⟩ :=
      reopen twinBegins (fun _ known => stored ▸ known) (Nat.lt_succ_self _) foreign
    have kept := (reread.store_of_looksUp (.preamble ..)).trans (stored.trans untouched.symm)
    obtain ⟨accepted, final, others, finalAt, left⟩ := @onward (gap ++ rest) again
      ⟨ontology.prefixes, limit again⟩ ⟨againAt.alike.trans (taking rest), againAt.noEof⟩ kept rfl
      (Nat.lt_succ_self _)
    refine ⟨again, accepted, final, reread, others, ⟨?_, finalAt.noEof⟩, left⟩
    rw [finalAt.alike, significant_append_of_silent silent]
  · intro rest twin twinBegins stored foreign
    have knows : ∀ declaration, start.store.Knows declaration → twin.store.Knows declaration := by
      intro declaration known
      rw [← untouched] at known
      rw [stored, Catalogue.Knows, chain.policy]
      exact known.imp_right (keeps declaration)
    obtain ⟨again, reread, againAt⟩ := reopen twinBegins knows (Nat.lt_succ_self _) foreign
    exact ⟨again, reread, againAt, (reread.store_of_looksUp (.preamble ..)).trans stored⟩

theorem text_begins (settings : Settings) (source text : String) (store : Catalogue) :
    (prepare settings ⟨.ofInput source (.ofString text), store⟩).Begins
      (Lexeme.lexemesOf text.toList) := by
  have begins := begins_ofInput source (.ofString text) store
  rw [Input.chars_ofString] at begins
  exact prepare_begins settings begins

/-- Two bodies, one after the other. If the document with the first one is read into a catalogue,
then the document with both is read into that catalogue as the one with the second body is read into
what the first one left: both give the same ontology, or fail with the same message and give the same
header, and the catalogue is the same at the end. -/
theorem readInto_resumes {source other another alone joined later : String} {store : Catalogue}
    {first second : List Lexeme} (opens : Spelling.Opening bindings ontology opening [])
    (closes : ∃ left, Closes closing left ∧ significant left = [])
    (foreign : (firstLexeme first).token ≠ .iri) (also : (firstLexeme second).token ≠ .iri)
    (one : Lexeme.lexemesOf alone.toList = opening ++ first ++ closing)
    (both : Lexeme.lexemesOf joined.toList = opening ++ first ++ second ++ closing)
    (rest : Lexeme.lexemesOf later.toList = opening ++ second ++ closing)
    (accepted :
      (readInto settings ⟨.ofInput source (.ofString alone), store⟩).result = .ok ontology) :
    let filled := (readInto settings ⟨.ofInput source (.ofString alone), store⟩).session.store
    let whole := readInto settings ⟨.ofInput other (.ofString joined), store⟩
    let resumed := readInto settings ⟨.ofInput another (.ofString later), filled⟩
    ((∃ ontology, whole.result = .ok ontology ∧ resumed.result = .ok ontology) ∨
      ∃ error wrong, whole.result = .error (.malformed error) ∧
        resumed.result = .error (.malformed wrong) ∧ wrong.message = error.message ∧
        wrong = { error with position := wrong.position }) ∧
    whole.ontology = resumed.ontology ∧ whole.session.store = resumed.session.store := by
  intro filled whole resumed
  rw [List.append_assoc] at one rest
  rw [List.append_assoc, List.append_assoc] at both
  obtain ⟨found, after, completes, stored⟩ := completes_of_ok accepted
  obtain ⟨left, mark, ended⟩ := closes
  obtain ⟨longer, shorter⟩ :=
    completes.exists_middle (one ▸ text_begins settings source alone store) opens ⟨left, mark, ended⟩
  have tail : (firstLexeme (second ++ closing)).token ≠ .iri :=
    firstLexeme_append also (by simp [Acceptance.closes_first mark])
  -- Both documents come to the second body with the same catalogue.
  obtain ⟨middle, others, last, read, chain, lastAt, left⟩ :=
    longer (both ▸ text_begins settings other joined store) (by simp)
      (firstLexeme_append foreign tail)
  obtain ⟨between, reread, betweenAt, remains⟩ :=
    shorter (rest ▸ text_begins settings another later filled) (by simpa using stored) tail
  have met := perform_ofInput_met settings other (Input.fault_ofString joined) store
  have unmet := perform_ofInput_met settings another (Input.fault_ofString later) filled
  have bodies : Agrees Eq (SyntaxError.Alike anywhere) Session.LaidAlike
      ((statements ontology last).run (Session.writer settings.checks) last) _ :=
    statements_run_at lastAt betweenAt (left.trans remains.symm)
  rw [← statements_run_accepted chain] at bodies
  rw [show whole = _ from readInto_eq_conclude .., show resumed = _ from readInto_eq_conclude ..]
  rw [perform_of_preamble read] at met ⊢
  rw [perform_of_preamble reread] at unmet ⊢
  refine conclude_alike ?_ met unmet
  generalize (statements ontology middle).run _ middle = run at bodies
  generalize (statements ontology between).run _ between = twin at bodies
  cases bodies with
  | ok _ kept => exact .ok rfl kept
  | error wrong kept => exact .error wrong kept

def declaredBody : String := "Declaration(Class(a:A))"

def twiceBody : String := "SubClassOf(a:A a:B) Declaration(Class(a:A))"

def around (body : String) : String := "Prefix(a:=<a:>)Ontology(<o:o>" ++ body ++ ")"

def aroundOpening : List Lexeme :=
  [⟨.keyword .prefixBinding, "Prefix"⟩, ⟨.openParen, "("⟩, ⟨.word, "a"⟩, ⟨.colon, ":"⟩,
    ⟨.equals, "="⟩, ⟨.iri, "<a:>"⟩, ⟨.closeParen, ")"⟩, ⟨.keyword .ontology, "Ontology"⟩,
    ⟨.openParen, "("⟩, ⟨.iri, "<o:o>"⟩]

theorem readInto_resumes_declared_twice :
    let settings : Settings := {}
    let ontology : Ontology := ⟨⟨"o:o"⟩, none, Prefixes.empty.insert "a" "a:"⟩
    let first := readInto settings
      (⟨.ofInput "" (.ofString (around declaredBody)), .empty .implicit⟩ : Session Catalogue)
    let whole := readInto settings
      (⟨.ofInput "" (.ofString (around (declaredBody ++ twiceBody))), .empty .implicit⟩ :
        Session Catalogue)
    let resumed := readInto settings
      ⟨.ofInput "" (.ofString (around twiceBody)), first.session.store⟩
    first.result = .ok ontology ∧
      whole.session.store.entries.get .owlClass = [⟨⟨"a:A"⟩, .explicit⟩, ⟨⟨"a:B"⟩, .implicit⟩] ∧
      ((∃ ontology, whole.result = .ok ontology ∧ resumed.result = .ok ontology) ∨
        ∃ error wrong, whole.result = .error (.malformed error) ∧
          resumed.result = .error (.malformed wrong) ∧ wrong.message = error.message ∧
          wrong = { error with position := wrong.position }) ∧
      whole.ontology = resumed.ontology ∧ whole.session.store = resumed.session.store := by
  intro settings ontology first whole resumed
  have accepted : first.result = .ok ontology := by decide +kernel
  have classes : whole.session.store.entries.get .owlClass =
      [⟨⟨"a:A"⟩, .explicit⟩, ⟨⟨"a:B"⟩, .implicit⟩] := by decide +kernel
  have opens : Spelling.Opening [⟨"a", "a:"⟩] ontology aroundOpening [] :=
    ⟨_, .cons ⟨_, _, _, _, _, ⟨_, ⟨_, rfl⟩, _, rfl⟩, .word rfl, ⟨_, rfl⟩, ⟨_, rfl⟩, rfl, ⟨_, rfl⟩⟩
      .nil, _, _, ⟨_, ⟨_, rfl⟩, _, rfl⟩, rfl, rfl⟩
  have closes : ∃ left, Closes [⟨.closeParen, ")"⟩] left ∧ significant left = [] :=
    ⟨[], ⟨_, rfl⟩, rfl⟩
  have one : Lexeme.lexemesOf (around declaredBody).toList =
      aroundOpening ++ Lexeme.lexemesOf declaredBody.toList ++ [⟨.closeParen, ")"⟩] := by
    decide +kernel
  have both : Lexeme.lexemesOf (around (declaredBody ++ twiceBody)).toList =
      aroundOpening ++ Lexeme.lexemesOf declaredBody.toList ++
        Lexeme.lexemesOf twiceBody.toList ++ [⟨.closeParen, ")"⟩] := by
    decide +kernel
  have rest : Lexeme.lexemesOf (around twiceBody).toList =
      aroundOpening ++ Lexeme.lexemesOf twiceBody.toList ++ [⟨.closeParen, ")"⟩] := by
    decide +kernel
  exact ⟨accepted, classes, readInto_resumes opens closes (by decide +kernel) (by decide +kernel)
    one both rest accepted⟩

end Document

end OwlFunctional
