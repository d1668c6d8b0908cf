import OwlFunctional.Proofs.Acceptance.Document
import OwlFunctional.Proofs.Composition

/-! The balance of parentheses while a document is read.

A construct that is read to its end has closed what it opened. This holds for any stream, whatever
its balance and its last step, and for any store. So the closing parenthesis of an ontology brings
the balance back to where it was before the ontology.
-/

set_option autoImplicit false

namespace OwlFunctional

namespace Place

theorem weight_of_trivia {token : Token} (trivia : token.isTrivia = true) : weight token = 0 := by
  cases token <;> simp [Token.isTrivia, weight] at *

theorem weight_of_word {token : Token} (word : token.isWord = true) : weight token = 0 := by
  cases token <;> simp [Token.isWord, weight] at *

end Place

namespace Stream

theorem scan_balance (stream : Stream) :
    stream.scan.2.place.balance = stream.place.balance + Place.weight stream.scan.1.token := by
  rw [scan_place, Place.after_balance]
  rfl

theorem skip_leadingTrivia_balance (stream : Stream) :
    (stream.skip stream.leadingTrivia).place.balance = stream.place.balance := by
  induction ahead : stream.ahead generalizing stream with
  | nil => simp [leadingTrivia, ahead, skip]
  | cons lexeme rest ih =>
    cases trivia : lexeme.token.isTrivia with
    | false => simp [leadingTrivia, ahead, trivia, skip]
    | true =>
      have behind : stream.scan.2.ahead = rest := by rw [scan_ahead, ahead, List.tail_cons]
      have first : stream.scan.1.token = lexeme.token := by simp [Scanned.token, next, ahead]
      have further : stream.leadingTrivia = stream.scan.2.leadingTrivia + 1 := by
        simp [leadingTrivia, ahead, trivia]
      rw [further, skip, ih _ behind, scan_balance, first, Place.weight_of_trivia trivia,
        Int.add_zero]

theorem token_balance (stream : Stream) :
    stream.token.2.place.balance = stream.place.balance + Place.weight stream.token.1.token := by
  rw [token, scan_balance, skip_leadingTrivia_balance]

/-- The place before a token is restored when the token is put back. -/
theorem token_unscan_balance (stream : Stream) :
    stream.token.2.unscan.place.balance = stream.place.balance := by
  rw [token, scan_unscan_place]
  exact stream.skip_leadingTrivia_balance

/-- A hyphen without a piece of a tag after it is where a reading fails. -/
theorem subtag_balance {stream : Stream} (whole : ∀ found, stream.subtag.1 ≠ .broken found) :
    stream.subtag.2.place.balance = stream.place.balance := by
  -- A tag goes on with a hyphen and a piece, two lexemes, or with a negative number, which has
  -- its hyphen in it. What is neither is put back.
  have first := stream.scan_balance
  have second := stream.scan.2.scan_balance
  unfold subtag at whole ⊢
  dsimp only at whole ⊢
  split at whole
  · next hyphen =>
    have flat : Place.weight stream.scan.1.token = 0 := by
      rw [Scanned.token, hyphen]
      rfl
    rw [if_pos hyphen]
    split at whole
    · next piece =>
      have level : Place.weight stream.scan.2.scan.1.token = 0 := by
        rcases Bool.or_eq_true_iff.mp piece with word | integer
        · exact Place.weight_of_word word
        · simp [of_decide_eq_true integer, Place.weight]
      rw [if_pos piece]
      dsimp only
      omega
    · exact absurd rfl (whole _)
  · next other =>
    rw [if_neg other]
    split
    · next number =>
      have flat : Place.weight stream.scan.1.token = 0 := by
        rw [number.1]
        rfl
      rw [first, flat, Int.add_zero]
    · rw [scan_unscan_place]

theorem peek_token_lexeme {stream : Stream} (visible : stream.token.1.token ≠ .eof) :
    stream.peek.2.token.1.lexeme = stream.token.1.lexeme := by
  obtain ⟨before, last⟩ := stream.token_lastStep
  rw [Scanned.token, token_lexeme] at visible
  have behind : stream.peek.2.ahead = significant stream.ahead := by
    have read := stream.token_ahead
    change stream.token.2.unscan.ahead = _
    unfold unscan
    rw [last]
    cases ahead : significant stream.ahead with
    | nil => simp [firstLexeme, ahead, Lexeme.eof] at visible
    | cons lexeme rest => simp_all [firstLexeme]
  rw [token_lexeme, token_lexeme, behind, firstLexeme, significant_significant, firstLexeme]

end Stream

variable {σ α : Type} [Store σ] {checks : Checks}

def Session.level {σ : Type} (session : Session σ) : Int := session.stream.place.balance

open Grammar

/-! ## Tokens -/

namespace Reads

variable {session between after : Session σ}

theorem token_level {scanned : Scanned} (read : Reads checks Reading.token session scanned after) :
    after.level = session.level + Place.weight scanned.token := by
  obtain ⟨rfl, rfl⟩ := token_iff.mp read
  exact session.stream.token_balance

theorem token_flat {kind : Token} {scanned : Scanned}
    (read : Reads checks Reading.token session scanned after) (same : scanned.token = kind)
    (flat : Place.weight kind = 0) : after.level = session.level := by
  rw [read.token_level, same, flat, Int.add_zero]

theorem unscan_level {scanned : Scanned} (read : Reads checks Reading.token session scanned between)
    (back : Reads checks Reading.unscan between () after) : after.level = session.level := by
  obtain ⟨rfl, rfl⟩ := token_iff.mp read
  obtain rfl := unscan_iff.mp back
  exact session.stream.token_unscan_balance

theorem peek_level {scanned : Scanned} (read : Reads checks Reading.peek session scanned after) :
    after.level = session.level := by
  obtain ⟨rfl, rfl⟩ := peek_iff.mp read
  exact session.stream.token_unscan_balance

theorem expect_level {token : Token} (read : Reads checks (Reading.expect token) session () after) :
    after.level = session.level + Place.weight token := by
  obtain ⟨scanned, scan, rfl⟩ := expect_iff.mp read
  exact scan.token_level

theorem accept_level {token : Token} {accepted : Bool} (flat : Place.weight token = 0)
    (read : Reads checks (Reading.accept token) session accepted after) :
    after.level = session.level := by
  obtain ⟨next, between, scan, read⟩ := bind_iff.mp read
  split at read
  · next same =>
    obtain ⟨-, rfl⟩ := pure_iff.mp read
    exact scan.token_flat same flat
  · obtain ⟨_, ended, back, read⟩ := bind_iff.mp read
    obtain ⟨-, rfl⟩ := pure_iff.mp read
    exact scan.unscan_level back

theorem token_of_peek {next scanned : Scanned} (look : Reads checks Reading.peek session next between)
    (read : Reads checks Reading.token between scanned after) (visible : next.token ≠ .eof) :
    scanned.lexeme = next.lexeme := by
  obtain ⟨rfl, rfl⟩ := peek_iff.mp look
  obtain ⟨rfl, rfl⟩ := token_iff.mp read
  exact Stream.peek_token_lexeme visible

end Reads

/-- Whenever the reading succeeds it leaves the balance of parentheses as it found it, wherever it
starts and whatever the store is. -/
def KeepsLevel (reading : Reading α) : Prop :=
  ∀ {σ : Type} [Store σ] {checks : Checks} {session after : Session σ} {value : α},
    Reads checks reading session value after → after.level = session.level

/-! ## Leaves -/

theorem shortName_keepsLevel : KeepsLevel shortName := by
  intro σ _ checks session after value read
  obtain ⟨first, begun, scan, read⟩ := Reads.bind_iff.mp read
  -- After the label comes a local name, which is a word.
  have local_name {given : String} {labelled : Session σ}
      (read : Reads checks (do
        let next ← Reading.token
        if next.token.isWord then pure (given, next.literal)
        else Reading.failOn next (.missing .localName)) labelled value after) :
      after.level = labelled.level := by
    obtain ⟨next, ended, scan, read⟩ := Reads.bind_iff.mp read
    split at read
    · next word =>
      obtain ⟨-, rfl⟩ := Reads.pure_iff.mp read
      exact scan.token_flat rfl (Place.weight_of_word word)
    · simp at read
  dsimp only at read
  split at read
  · next kind =>
    obtain ⟨_, labelled, mark, read⟩ := Reads.bind_iff.mp read
    rw [local_name read, mark.expect_level, scan.token_flat kind rfl]
    exact Int.add_zero _
  · next kind =>
    rw [local_name read, scan.token_flat kind rfl]
  · obtain ⟨_, _, failed, _⟩ := Reads.bind_iff.mp read
    simp at failed

theorem name_keepsLevel (scope : Scope) : KeepsLevel (name scope) := by
  intro σ _ checks session after value read
  obtain ⟨next, peeked, look, read⟩ := Reads.bind_iff.mp read
  -- The case is told from the token that was looked at, so this one has to be met again when it
  -- is read.
  have short (read : Reads checks (do
      let found ← shortName
      pure (← resolve scope found.1 found.2 next.position, next.position)) peeked value after) :
      after.level = session.level := by
    obtain ⟨found, between, short, read⟩ := Reads.bind_iff.mp read
    obtain ⟨iri, ended, resolved, read⟩ := Reads.bind_iff.mp read
    obtain ⟨-, rfl⟩ := Reads.pure_iff.mp read
    obtain ⟨-, rfl⟩ := Recognition.resolve_iff.mp resolved
    rw [shortName_keepsLevel short, look.peek_level]
  split at read
  · next kind =>
    obtain ⟨scanned, between, scan, read⟩ := Reads.bind_iff.mp read
    obtain ⟨iri, ended, bracket, read⟩ := Reads.bind_iff.mp read
    obtain ⟨-, rfl⟩ := Reads.pure_iff.mp read
    obtain ⟨-, -, rfl⟩ := Recognition.bracketedIri_iff.mp bracket
    have same : scanned.token = .iri := by
      rw [Scanned.token, Reads.token_of_peek look scan (by simp [kind])]
      exact kind
    rw [scan.token_flat same rfl, look.peek_level]
  · exact short read
  · exact short read
  · simp at read

theorem languageRest_keepsLevel (tag : String) (limit : Nat) :
    KeepsLevel (languageRest tag limit) := by
  intro σ _ checks session after value read
  induction limit generalizing tag session with
  | zero => simp [languageRest, Reading.limitReached, Reads.bind_iff] at read
  | succ limit ih =>
    obtain ⟨found, between, piece, read⟩ := Reads.bind_iff.mp read
    obtain ⟨same, rfl⟩ := Reads.subtag_iff.mp piece
    have level (whole : ∀ scanned, found ≠ .broken scanned) :
        session.stream.subtag.2.place.balance = session.stream.place.balance :=
      Stream.subtag_balance (by rwa [same])
    split at read
    · rw [ih _ read]
      exact level (by simp)
    · simp at read
    · obtain ⟨_, checked, check, read⟩ := Reads.bind_iff.mp read
      obtain ⟨-, rfl⟩ := Reads.checkTag_iff.mp check
      obtain ⟨-, rfl⟩ := Reads.pure_iff.mp read
      exact level (by simp)

theorem language_keepsLevel (scope : Scope) : KeepsLevel (language scope) := by
  intro σ _ checks session after value read
  obtain ⟨accepted, between, accept, read⟩ := Reads.bind_iff.mp read
  have start := accept.accept_level rfl
  split at read
  · obtain ⟨first, begun, scan, read⟩ := Reads.bind_iff.mp read
    split at read
    · next word =>
      obtain ⟨tag, rest, -⟩ := Reads.map_iff.mp read
      rw [languageRest_keepsLevel _ _ rest, scan.token_flat rfl (Place.weight_of_word word), start]
    · simp at read
  · obtain ⟨-, rfl⟩ := Reads.pure_iff.mp read
    exact start

theorem datatypeSuffix_keepsLevel (scope : Scope) : KeepsLevel (datatypeSuffix scope) := by
  intro σ _ checks session after value read
  obtain ⟨accepted, between, accept, read⟩ := Reads.bind_iff.mp read
  have start := accept.accept_level rfl
  split at read
  · obtain ⟨named, ended, name, read⟩ := Reads.bind_iff.mp read
    obtain ⟨-, rfl⟩ := Reads.pure_iff.mp read
    rw [name_keepsLevel scope name, start]
  · obtain ⟨-, rfl⟩ := Reads.pure_iff.mp read
    exact start

theorem literal_keepsLevel (scope : Scope) : KeepsLevel (literal scope) := by
  intro σ _ checks session after value read
  obtain ⟨first, begun, scan, read⟩ := Reads.bind_iff.mp read
  split at read
  · next kind =>
    obtain ⟨-, rfl⟩ := Reads.pure_iff.mp read
    exact scan.token_flat kind rfl
  · simp at read
  · next kind written _ =>
    have start : begun.level = session.level :=
      scan.token_flat (Recognition.token_of_writtenKind? written) (by cases kind <;> rfl)
    dsimp only at read
    split at read
    · obtain ⟨language, spoken, tag, read⟩ := Reads.bind_iff.mp read
      obtain ⟨suffix, typed, -⟩ := Recognition.typed_iff.mp read
      rw [datatypeSuffix_keepsLevel scope typed, language_keepsLevel scope (Reads.within_iff.mp tag),
        start]
    · obtain ⟨language, spoken, none, read⟩ := Reads.bind_iff.mp read
      obtain ⟨-, rfl⟩ := Reads.pure_iff.mp none
      obtain ⟨suffix, typed, -⟩ := Recognition.typed_iff.mp read
      rw [datatypeSuffix_keepsLevel scope typed, start]

theorem cardinality_keepsLevel : KeepsLevel cardinality := by
  intro σ _ checks session after value read
  obtain ⟨next, between, scan, read⟩ := Reads.bind_iff.mp read
  split at read
  · next integer =>
    split at read
    · obtain ⟨-, rfl⟩ := Reads.pure_iff.mp read
      exact scan.token_flat integer rfl
    · simp at read
  · simp at read

theorem declaredKind_keepsLevel : KeepsLevel declaredKind := by
  intro σ _ checks session after value read
  obtain ⟨next, between, scan, read⟩ := Reads.bind_iff.mp read
  split at read
  · next keyword =>
    obtain ⟨-, rfl⟩ := Reads.pure_iff.mp read
    exact scan.token_flat keyword rfl
  · simp at read

/-! ## Constructs -/

theorem Reads.enclosed_level {session after : Session σ} {keyword : Keyword} {inside : Reading α}
    {value : α} (keeps : ∀ {opened inner : Session σ}, Reads checks inside opened value inner →
      inner.level = opened.level)
    (read : Reads checks (enclosed keyword inside) session value after) :
    after.level = session.level := by
  obtain ⟨named, opened, inner, word, paren, core, close⟩ := enclosed_iff.mp read
  have start := word.expect_level
  have up := paren.expect_level
  have same := keeps core
  have down := close.expect_level
  simp only [Place.weight] at start up down
  omega

theorem Composed.keepsLevel {reading : Reading α} (composed : Composed reading) :
    KeepsLevel reading := by
  intro σ _ checks session after value read
  -- None but the last two cases read parentheses, and both read one of each sort.
  induction composed generalizing session after with
  | done given =>
    obtain ⟨-, rfl⟩ := Reads.pure_iff.mp read
    rfl
  | failed error => simp at read
  | bind first next ihFirst ihNext =>
    obtain ⟨middle, between, head, tail⟩ := Reads.bind_iff.mp read
    rw [ihNext middle tail, ihFirst head]
  | within context inner ih => exact ih (Reads.within_iff.mp read)
  | peek => exact read.peek_level
  | here =>
    obtain ⟨-, rfl⟩ := Reads.here_iff.mp read
    rfl
  | name scope => exact name_keepsLevel scope read
  | shortName => exact shortName_keepsLevel read
  | literal scope => exact literal_keepsLevel scope read
  | cardinality => exact cardinality_keepsLevel read
  | declaredKind => exact declaredKind_keepsLevel read
  | find unknown usable =>
    obtain ⟨store, -, rfl⟩ := Reads.find_iff.mp read
    rfl
  | enclosed keyword inner ih => exact read.enclosed_level ih
  | parenthesised inner next ihInner ihNext =>
    obtain ⟨_, opened, paren, read⟩ := Reads.bind_iff.mp read
    obtain ⟨middle, inside, core, read⟩ := Reads.bind_iff.mp read
    obtain ⟨_, closed, close, read⟩ := Reads.bind_iff.mp read
    have up := paren.expect_level
    have same := ihInner core
    have down := close.expect_level
    simp only [Place.weight] at up down
    rw [ihNext middle read]
    omega

/-! ## Documents -/

theorem boundSpace_keepsLevel (first : Scanned) (label : String) :
    KeepsLevel (boundSpace first label) := by
  intro σ _ checks session after value read
  obtain ⟨_, marked, marks, read⟩ := Reads.bind_iff.mp read
  obtain ⟨between, colon, equals⟩ := Reads.expectBoth_iff.mp marks
  obtain ⟨next, ended, scan, read⟩ := Reads.bind_iff.mp read
  have first := colon.expect_level
  have second := equals.expect_level
  simp only [Place.weight] at first second
  dsimp only at read
  split at read
  · next kind =>
    obtain ⟨iri, bracketed, bracket, read⟩ := Reads.bind_iff.mp read
    obtain ⟨-, -, rfl⟩ := Recognition.bracketedIri_iff.mp bracket
    obtain ⟨-, rfl⟩ := Reads.pure_iff.mp read
    rw [scan.token_flat kind rfl]
    omega
  · obtain ⟨_, _, failed, _⟩ := Reads.bind_iff.mp read
    simp at failed

theorem prefixBinding_keepsLevel (labels : List String) : KeepsLevel (prefixBinding labels) := by
  intro σ _ checks session after value read
  obtain ⟨⟨first, label, space⟩, ended, enclosed, read⟩ := Reads.bind_iff.mp read
  have inside := enclosed.enclosed_level (fun {opened inner} core => by
    obtain ⟨mark, begun, scan, core⟩ := Reads.bind_iff.mp core
    dsimp only at core
    split at core
    · obtain ⟨_, back, unscan, core⟩ := Reads.bind_iff.mp core
      rw [boundSpace_keepsLevel _ _ core, scan.unscan_level unscan]
    · next kind => rw [boundSpace_keepsLevel _ _ core, scan.token_flat kind rfl]
    · obtain ⟨_, _, failed, _⟩ := Reads.bind_iff.mp core
      simp at failed)
  dsimp only at read
  split at read
  · simp at read
  · obtain ⟨_, reported, report, read⟩ := Reads.bind_iff.mp read
    obtain rfl := Reads.report_iff.mp report
    obtain ⟨-, rfl⟩ := Reads.pure_iff.mp read
    exact inside

namespace Reads

variable {session after : Session σ} {scope : Scope}

theorem version_level {version : Option Iri} (read : ReadsVersion checks session version after) :
    after.level = session.level := by
  cases read with
  | absent look other => exact look.peek_level
  | @present next again _ _ _ look same read written passed =>
    have kind : again.token = .iri := by
      rw [Scanned.token, token_of_peek look read (by simp [same])]
      exact same
    rw [read.token_flat kind rfl, look.peek_level]

theorem header_level {prefixes : Prefixes} {ontology : Ontology}
    (read : Reads checks (header prefixes) session ontology after) :
    after.level = session.level + 1 := by
  obtain ⟨named, opened, begun, first, word, paren, scan, kind, -, -, versioned, -⟩ :=
    header_iff.mp read
  have start := word.expect_level
  have up := paren.expect_level
  have iri := scan.token_flat kind rfl
  have version := version_level versioned
  simp only [Place.weight] at start up
  omega

/-- Only the closing parenthesis of the ontology is no statement. -/
theorem statement?_level {found : Option Statement}
    (read : Reads checks (statement? scope) session found after) :
    after.level = session.level + if found = none then -1 else 0 := by
  obtain ⟨next, between, scan, read⟩ := bind_iff.mp read
  split at read
  · next close =>
    obtain ⟨rfl, rfl⟩ := pure_iff.mp read
    rw [scan.token_level, close]
    rfl
  · obtain ⟨_, back, unscan, read⟩ := bind_iff.mp read
    have start := scan.unscan_level unscan
    split at read
    · obtain ⟨statement, core, rfl⟩ := map_iff.mp read
      rw [(Composed.declaration scope).keepsLevel core, start]
      exact (Int.add_zero _).symm
    · obtain ⟨statement, core, rfl⟩ := map_iff.mp read
      rw [(Composed.assertion scope next).keepsLevel core, start]
      exact (Int.add_zero _).symm

end Reads

variable {session last : Session σ} {scope : Scope}

theorem Sees.level {token : Token} (sees : Sees checks token session last) :
    last.level = session.level := by
  obtain ⟨scanned, between, scan, -, back⟩ := sees
  exact scan.unscan_level back

theorem Binds.level {labels : List String} {bindings : List Binding}
    (binds : Binds checks labels session bindings last) : last.level = session.level := by
  induction binds with
  | none => rfl
  | more sees read _ ih => rw [ih, prefixBinding_keepsLevel _ read, sees.level]

/-- Statements keep the balance one by one, since to write a statement moves no cursor. -/
theorem Accepted.level {accepted : List (Statement × Session σ)}
    (chain : Accepted checks scope session accepted last) : last.level = session.level := by
  induction chain with
  | none => rfl
  | more read wrote _ ih =>
    rw [ih, Session.level, write_unmoved wrote]
    exact read.statement?_level.trans (Int.add_zero _)

theorem body_level {limit : Nat} (enough : session.stream.ahead.length < limit)
    (ran : (body scope limit).run (Session.writer checks) session = (.ok (), last)) :
    last.level = session.level - 1 := by
  -- The accepted statements keep the balance. What made the loop end without an error can only be
  -- the parenthesis.
  obtain ⟨accepted, before, result, after, extra, chain, halts, again, -⟩ :=
    body_run checks scope enough
  obtain ⟨same, rfl⟩ := Prod.mk.inj (again.symm.trans ran)
  subst same
  cases halts with
  | closed close => rw [close.statement?_level, chain.level, if_pos rfl, Int.sub_eq_add_neg]

/-- A short name after the mark of an anonymous individual has that mark as its label. -/
theorem shortName_anonymous {between after : Session σ} {label name : String}
    (starts : Reads checks startsAnonymous session true between)
    (read : Reads checks shortName between (label, name) after) : label = anonymousMark := by
  obtain ⟨next, peeked, look, starts⟩ := Reads.bind_iff.mp starts
  obtain ⟨marked, rfl⟩ := Reads.pure_iff.mp starts
  rw [Bool.and_eq_true, decide_eq_true_iff, decide_eq_true_iff] at marked
  obtain ⟨first, begun, scan, read⟩ := Reads.bind_iff.mp read
  have same := Reads.token_of_peek look scan (by simp [marked.1])
  have word : first.token = .word := (congrArg Lexeme.token same).trans marked.1
  have literal : first.literal = anonymousMark := (congrArg Lexeme.literal same).trans marked.2
  simp only [word] at read
  obtain ⟨_, labelled, -, read⟩ := Reads.bind_iff.mp read
  obtain ⟨_, _, given, read⟩ := Reads.bind_iff.mp read
  obtain ⟨rfl, -⟩ := Reads.pure_iff.mp given
  obtain ⟨second, ended, -, read⟩ := Reads.bind_iff.mp read
  split at read
  · obtain ⟨parts, -⟩ := Reads.pure_iff.mp read
    rw [← (Prod.mk.inj parts).1, literal]
  · simp at read

inductive Nonterminal : {α : Type} → Reading α → Prop where
  | name (scope : Scope) : Nonterminal (name scope)
  | individual (scope : Scope) : Nonterminal (individual scope)
  | literal (scope : Scope) : Nonterminal (literal scope)
  | objectProperty (scope : Scope) : Nonterminal (objectProperty scope)
  | dataProperty (scope : Scope) : Nonterminal (dataProperty scope)
  | annotationProperty (scope : Scope) : Nonterminal (annotationProperty scope)
  | dataRange (scope : Scope) : Nonterminal (dataRange scope)
  | classExpression (scope : Scope) : Nonterminal (classExpression scope)
  | annotations (scope : Scope) : Nonterminal (annotations scope)
  | declaration (scope : Scope) : Nonterminal (declaration scope)
  | assertion (scope : Scope) (first : Scanned) : Nonterminal (assertion scope first)
  | prefixBinding (labels : List String) : Nonterminal (prefixBinding labels)

theorem Nonterminal.keepsLevel {reading : Reading α} (nonterminal : Nonterminal reading) :
    KeepsLevel reading := by
  cases nonterminal with
  | name scope => exact name_keepsLevel scope
  | individual scope => exact (Composed.individual scope).keepsLevel
  | literal scope => exact literal_keepsLevel scope
  | objectProperty scope => exact (Composed.objectProperty scope).keepsLevel
  | dataProperty scope => exact (Composed.dataProperty scope).keepsLevel
  | annotationProperty scope => exact (Composed.annotationProperty scope).keepsLevel
  | dataRange scope => exact (Composed.dataRange scope).keepsLevel
  | classExpression scope => exact (Composed.classExpression scope).keepsLevel
  | annotations scope => exact (Composed.annotations scope).keepsLevel
  | declaration scope => exact (Composed.declaration scope).keepsLevel
  | assertion scope first => exact (Composed.assertion scope first).keepsLevel
  | prefixBinding labels => exact prefixBinding_keepsLevel labels

namespace Document

/-- The statements of a document come to their end: one session stands before the header of the
ontology, the other one after its closing parenthesis. -/
inductive Spans (settings : Settings) (start before closed : Session σ) : Prop where
  | intro {bindings : List Binding} {bound middle : Session σ} {ontology : Ontology} :
      Binds settings.checks [] start bindings bound →
      Sees settings.checks (.keyword .ontology) bound before →
      Reads settings.checks (header (settings.prefixes.override bindings)) before ontology middle →
      (body ⟨ontology.prefixes, limit middle⟩ (limit middle)).run
        (Session.writer settings.checks) middle = (.ok (), closed) →
      Spans settings start before closed

theorem Spans.level {settings : Settings} {start before closed : Session σ}
    (spans : Spans settings start before closed) :
    closed.level = before.level ∧ before.level = start.level := by
  obtain ⟨binds, sees, head, ran⟩ := spans
  have down := body_level (Nat.lt_succ_self _) ran
  have up := head.header_level
  refine ⟨by omega, ?_⟩
  rw [sees.level, binds.level]

theorem spans_of_ok {settings : Settings} {session : Session σ} {ontology : Ontology}
    (ok : (readInto settings session).result = .ok ontology) :
    ∃ before closed, Spans settings (prepare settings session) before closed := by
  obtain ⟨statements, after, completes, -⟩ := completes_of_ok ok
  obtain ⟨read, chain, close, -, -⟩ := completes
  obtain ⟨bindings, bound, binds, before, sees, head⟩ :=
    (preamble_iff (Nat.lt_succ_self _)).mp read
  exact ⟨before, _, .intro binds sees head (run_body chain close (Nat.lt_succ_self _))⟩

/-- Parentheses are balanced, for any stream and any store. Every construct that is read leaves the
balance as it was. Where the statements of a document end, the balance is the one from before the
ontology, and before the document; and every document that is accepted ends so. What is read as
an anonymous individual has the mark of one. -/
theorem readInto_balanced (settings : Settings) (session : Session σ) :
    (∀ {α : Type} {reading : Reading α}, Nonterminal reading → KeepsLevel reading) ∧
    (∀ before closed, Spans settings (prepare settings session) before closed →
      closed.level = before.level ∧ before.level = session.level) ∧
    (∀ ontology, (readInto settings session).result = .ok ontology →
      ∃ before closed, Spans settings (prepare settings session) before closed) ∧
    ∀ {checks : Checks} {start between after : Session σ} {label name : String},
      Reads checks startsAnonymous start true between →
      Reads checks shortName between (label, name) after → label = anonymousMark := by
  refine ⟨Nonterminal.keepsLevel, ?_, fun ontology => spans_of_ok, shortName_anonymous⟩
  intro before closed spans
  have unmoved : (prepare settings session).level = session.level := by
    unfold prepare
    split <;> rfl
  rw [← unmoved]
  exact spans.level

end Document

end OwlFunctional
