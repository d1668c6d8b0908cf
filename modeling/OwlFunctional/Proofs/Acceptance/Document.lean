import OwlFunctional.Proofs.Acceptance.Statement
import OwlFunctional.Proofs.Faults

/-! A document that is spelled is read to its end, if the catalogue admits its statements. -/

set_option autoImplicit false

namespace OwlFunctional

namespace Acceptance

open Spelling Grammar

variable {session : Session Catalogue} {input rest : List Lexeme} {scope : Scope}

/-! ## The preamble -/

theorem exists_sees {token : Token} (mark : Mark token input rest) (here : session.At input) :
    ∃ seen, Sees .lenient token session seen ∧ seen.At input := by
  obtain ⟨literal, takes⟩ := mark
  obtain ⟨next, between, scan, same, -⟩ := readsUpTo_token takes here
  have back : Reads .lenient Reading.unscan between () _ := Reads.unscan_iff.mpr rfl
  exact ⟨_, ⟨next, between, scan, by rw [Scanned.token, same], back⟩, scan.unscan_at back here⟩

theorem readsTo_boundSpace (first : Scanned) (label : String) {space : Iri}
    {second third : List Lexeme} (colon : Mark .colon input second)
    (equals : Mark .equals second third) (takes : Takes ⟨.iri, space.render⟩ third rest)
    (here : session.At input) :
    ReadsTo (boundSpace first label) session (first, label, space) rest := by
  obtain ⟨named, colonRead, ahead⟩ := readsUpTo_expect colon here
  have namedAt := colonRead.atAhead here ahead
  obtain ⟨bound, equalsRead, ahead⟩ := readsUpTo_expect equals namedAt
  have boundAt := equalsRead.atAhead namedAt ahead
  obtain ⟨next, after, scan, same, ahead⟩ := readsUpTo_token takes boundAt
  have marks : Reads .lenient (Reading.expectAll [.colon, .equals]) session () bound :=
    Reads.expectBoth_iff.mpr ⟨named, colonRead, equalsRead⟩
  have bracket : Reads .lenient (bracketedIri next) after space after :=
    Recognition.bracketedIri_iff.mpr ⟨by rw [Scanned.literal, same], rfl, rfl⟩
  have kind : next.token = .iri := by rw [Scanned.token, same]
  refine ⟨after, Reads.bind_iff.mpr ⟨(), bound, marks, Reads.bind_iff.mpr ⟨next, after, scan, ?_⟩⟩,
    scan.atAhead boundAt ahead⟩
  dsimp only
  rw [if_pos kind]
  exact Reads.bind_iff.mpr ⟨space, after, bracket, by simp⟩

theorem readsUpTo_prefixBinding {labels : List String} {binding : Binding}
    (spelled : Spelling.Bound binding input rest) (free : binding.label ∉ labels)
    (here : session.At input) : ReadsUpTo (prefixBinding labels) session binding rest := by
  obtain ⟨first, second, third, fourth, fifth, opens, label, colon, equals, space, closes⟩ := spelled
  refine readsUpTo_enclosed_bind
    (P := fun found : Scanned × String × Iri => found.2 = (binding.label, ⟨binding.space⟩))
    opens here (fun opened openedAt _ => ?_) closes fun found after same => ?_
  · generalize binding.label = text at label
    cases label with
    | empty =>
      -- The colon is put back, to be read after the label.
      obtain ⟨literal, takes⟩ := colon
      obtain ⟨next, begun, scan, same, -⟩ := readsUpTo_token takes openedAt
      have back : Reads .lenient Reading.unscan begun () _ := Reads.unscan_iff.mpr rfl
      have kind : next.token = .colon := by rw [Scanned.token, same]
      obtain ⟨after, read, afterAt⟩ := readsTo_boundSpace next "" ⟨literal, takes⟩ equals space
        (scan.unscan_at back openedAt)
      refine ⟨(next, "", ⟨binding.space⟩), rfl, after, Reads.bind_iff.mpr ⟨next, begun, scan, ?_⟩, afterAt⟩
      simp only [kind]
      exact Reads.bind_iff.mpr ⟨(), _, back, read⟩
    | word takes =>
      obtain ⟨next, begun, scan, same, ahead⟩ := readsUpTo_token takes openedAt
      have kind : next.token = .word := by rw [Scanned.token, same]
      obtain ⟨after, read, afterAt⟩ := readsTo_boundSpace next next.literal colon equals space
        (scan.atAhead openedAt ahead)
      refine ⟨(next, next.literal, ⟨binding.space⟩), by simp [Scanned.literal, same], after,
        Reads.bind_iff.mpr ⟨next, begun, scan, ?_⟩, afterAt⟩
      simp only [kind]
      exact read
  · obtain ⟨scanned, label, space⟩ := found
    obtain ⟨rfl, rfl⟩ := Prod.mk.inj same
    dsimp only
    rw [if_neg (by simpa using free)]
    exact Reads.bind_iff.mpr ⟨(), after, Reads.report_iff.mpr rfl, by simp⟩

theorem exists_binds {labels : List String} {bindings : List Binding}
    (sequence : Sequence Spelling.Bound bindings input rest)
    (free : ∀ binding ∈ bindings, binding.label ∉ labels)
    (distinct : (bindings.map (·.label)).Nodup) (here : session.At input) :
    ∃ after, Binds .lenient labels session bindings after ∧ after.At rest := by
  induction sequence generalizing session labels with
  | nil => exact ⟨session, .none, here⟩
  | @cons binding others input middle rest first sequence ih =>
    rw [List.map_cons, List.nodup_cons] at distinct
    have ⟨_, _, _, _, _, opens, _⟩ := first
    obtain ⟨seen, sees, seenAt⟩ := exists_sees opens.choose_spec.1 here
    obtain ⟨read, bound, ahead⟩ := readsUpTo_prefixBinding first (free binding (by simp)) seenAt
    have later : ∀ other ∈ others, other.label ∉ binding.label :: labels := by
      intro other member
      rw [List.mem_cons, not_or]
      refine ⟨fun same => distinct.1 ?_, free other (List.mem_cons_of_mem _ member)⟩
      exact same ▸ List.mem_map_of_mem member
    obtain ⟨after, binds, afterAt⟩ := ih later distinct.2 (bound.atAhead seenAt ahead)
    exact ⟨after, .more sees bound binds, afterAt⟩

theorem exists_heads {prefixes : Prefixes} {iri : Iri} {version : Option Iri}
    (spelled : Header iri version input rest)
    (single : version = none → (firstLexeme rest).token ≠ .iri) (here : session.At input) :
    ∃ after, Heads .lenient prefixes session ⟨iri, version, prefixes⟩ after ∧ after.At rest := by
  obtain ⟨first, second, opens, takes, versioned⟩ := spelled
  obtain ⟨seen, sees, seenAt⟩ := exists_sees opens.choose_spec.1 here
  obtain ⟨between, mark, paren⟩ := opens
  obtain ⟨named, word, ahead⟩ := readsUpTo_expect mark seenAt
  have namedAt := word.atAhead seenAt ahead
  obtain ⟨opened, parenRead, ahead⟩ := readsUpTo_expect paren namedAt
  have openedAt := parenRead.atAhead namedAt ahead
  obtain ⟨scanned, begun, scan, same, ahead⟩ := readsUpTo_token takes openedAt
  have begunAt := scan.atAhead openedAt ahead
  have headed {after : Session Catalogue} (read : ReadsVersion .lenient begun version after) :
      Heads .lenient prefixes session ⟨iri, version, prefixes⟩ after :=
    ⟨seen, sees, header_iff.mpr ⟨named, opened, begun, scanned, word, parenRead, scan,
      by rw [Scanned.token, same], by rw [Scanned.literal, same], rfl, read, rfl⟩⟩
  obtain ⟨next, peeked, look, sight, peekedAt⟩ := reads_peek begunAt
  cases version with
  | none =>
    obtain rfl : second = rest := versioned
    have other : next.token ≠ .iri := by
      rw [Scanned.token, sight]
      exact single rfl
    exact ⟨peeked, headed (.absent look other), peekedAt⟩
  | some version =>
    have first : next.lexeme = ⟨.iri, version.render⟩ := sight.trans (Takes.first versioned)
    obtain ⟨again, after, consume, -, ahead⟩ := readsUpTo_token versioned peekedAt
    exact ⟨after, headed (.present look (by rw [Scanned.token, first]) consume
      (by rw [Scanned.literal, first]) rfl), consume.atAhead peekedAt ahead⟩

end Acceptance

/-! ## The body -/

namespace Catalogue

theorem declare_policy (catalogue : Catalogue) (declaration : Declaration)
    (annotations : List Annotation) :
    (catalogue.declare declaration annotations).2.policy = catalogue.policy := by
  unfold declare
  split
  · rfl
  · dsimp only
    split <;> rfl

theorem write_policy (statement : Statement) (catalogue : Catalogue) :
    (catalogue.write statement).2.policy = catalogue.policy := by
  cases statement with
  | declaration declared annotations position => exact catalogue.declare_policy declared annotations
  | assertion annotated =>
    simp only [write, add]
    rw [note_eq]

/-- The catalogue takes the statements one after the other, and each finds what it refers to. -/
inductive Admits : Catalogue → List Statement → Catalogue → Prop where
  | none {catalogue : Catalogue} : Admits catalogue [] catalogue
  | more {statement : Statement} {others : List Statement} {before after last : Catalogue} :
      (∀ declaration ∈ statement.references, before.Resolves declaration) →
      before.write statement = (true, after) → Admits after others last →
      Admits before (statement :: others) last

theorem Admits.policy {before after : Catalogue} {statements : List Statement}
    (admits : before.Admits statements after) : after.policy = before.policy := by
  induction admits with
  | none => rfl
  | @more statement others before taken last resolve takes admits ih =>
    have same := before.write_policy statement
    rw [takes] at same
    exact ih.trans same

end Catalogue

namespace Acceptance

open Spelling Grammar

variable {session : Session Catalogue} {input rest : List Lexeme} {scope : Scope}

theorem run_write_of_sameContent {checks : Checks} {statement found : Statement}
    {store : Catalogue} (same : SameContent statement found)
    (takes : session.store.write statement = (true, store)) :
    (Grammar.write found).run (Session.writer checks) session =
      (.ok (), { session with store := store }) := by
  refine wrote_iff.mpr ⟨?_, rfl⟩
  cases same <;> exact takes

/-- Under the explicit policy reading changes nothing, so the catalogue after the statements is
what became of the one before them. -/
theorem exists_accepted (scope : Scope) {statements : List Statement} {store : Catalogue}
    (sequence : Sequence (Sentence scope.prefixes) statements input rest)
    (admits : session.store.Admits statements store) (explicit : session.store.policy = .explicit)
    (here : session.At input) (enough : session.stream.ahead.length < scope.limit) :
    ∃ accepted after, Accepted .lenient scope session accepted after ∧ after.At rest ∧
      after.store = store := by
  induction sequence generalizing session with
  | nil =>
    cases admits
    exact ⟨[], session, .none, here, rfl⟩
  | @cons statement others input middle rest first sequence ih =>
    cases admits with
    | @more _ _ _ taken _ resolve takes admits =>
      obtain ⟨found, same, read, reading, ahead⟩ :=
        readsUpTo_statement? first here (here.size_lt enough) resolve
      have unchanged : read.store = session.store := reading.grows.fixed explicit
      have policy := session.store.write_policy statement
      rw [takes, explicit] at policy
      rw [← unchanged] at takes
      have readAt := reading.atAhead here ahead
      have shorter := reading.statement_enclosed.2
      have writtenAt : (⟨read.stream, taken⟩ : Session Catalogue).At middle :=
        ⟨readAt.alike, readAt.noEof⟩
      obtain ⟨accepted, after, chain, afterAt, stored⟩ :=
        ih admits policy writtenAt (Nat.lt_trans shorter enough)
      exact ⟨_, after, .more reading (run_write_of_sameContent same takes) chain, afterAt, stored⟩

theorem reads_closing (checks : Checks) (scope : Scope) (closes : Closes input rest)
    (here : session.At input) :
    ∃ after, Reads checks (statement? scope) session none after ∧ after.stream.ahead = rest := by
  obtain ⟨literal, takes⟩ := closes
  obtain ⟨next, after, scan, same, ahead⟩ := Reads.token_of_takes takes here
  have kind : next.token = .closeParen := by rw [Scanned.token, same]
  refine ⟨after, Reads.bind_iff.mpr ⟨next, after, scan, ?_⟩, ahead⟩
  simp [kind]

theorem reads_ending (checks : Checks) (ended : significant input = []) (here : session.At input) :
    ∃ after, Reads checks ending session () after := by
  have scan : Reads checks Reading.token session _ _ := Reads.token_iff.mpr ⟨rfl, rfl⟩
  have first : session.stream.token.1.token = .eof := by
    rw [Scanned.token, scan.token_first here, firstLexeme, ended]
    rfl
  refine ⟨{ session with stream := session.stream.token.2 }, Reads.bind_iff.mpr ⟨_, _, scan, ?_⟩⟩
  rw [if_pos first]
  exact Reads.pure_iff.mpr ⟨rfl, rfl⟩

end Acceptance

theorem Accepted.body_run {σ : Type} [Store σ] {checks : Checks} {scope : Scope} {limit : Nat}
    {session last : Session σ} {accepted : List (Statement × Session σ)}
    (chain : Accepted checks scope session accepted last)
    (enough : session.stream.ahead.length < limit) :
    ∃ few ≤ limit, last.stream.ahead.length < few ∧
      (Grammar.body scope limit).run (Session.writer checks) session =
        (Grammar.body scope few).run (Session.writer checks) last := by
  induction chain generalizing limit with
  | none => exact ⟨limit, Nat.le_refl _, enough, rfl⟩
  | @more statement others session read written last first wrote chain ih =>
    obtain ⟨limit, rfl⟩ := Nat.exists_eq_succ_of_ne_zero (Nat.ne_zero_of_lt enough)
    have fewer : written.stream.ahead.length < limit := by
      have shorter := first.statement_enclosed.2
      rw [write_unmoved wrote]
      omega
    obtain ⟨few, le, fits, same⟩ := ih fewer
    refine ⟨few, Nat.le_succ_of_le le, fits, ?_⟩
    rw [body_succ, Program.run_bind, Writing.run_ofReading, first]
    simp only [bodyAfter]
    rw [Program.run_bind, wrote]
    exact same

namespace Document

open Spelling

variable {session : Session Catalogue}

/-- After the header comes a statement or the closing parenthesis, so nothing that could be taken
for the name of a version. -/
theorem body_first {prefixes : Prefixes} {statements : List Statement}
    {input rest last : List Lexeme} (sequence : Sequence (Sentence prefixes) statements input rest)
    (closes : Closes rest last) : (firstLexeme input).token ≠ .iri := by
  cases sequence with
  | nil => simp [Acceptance.closes_first closes]
  | cons first =>
    cases first with
    | declaration opens => simp [Acceptance.opens_first opens]
    | assertion opens => simp [Acceptance.opens_first opens]

theorem exists_preamble {settings : Settings} {bindings : List Binding} {iri : Iri}
    {version : Option Iri} {statements : List Statement} {prefixes : Prefixes}
    {input first second third last : List Lexeme}
    (bound : Sequence Spelling.Bound bindings input first)
    (distinct : (bindings.map (·.label)).Nodup) (headed : Header iri version first second)
    (stated : Sequence (Sentence prefixes) statements second third) (closes : Closes third last)
    (here : session.At input) :
    ∃ middle, Reads .lenient (preamble settings session) session
      ⟨iri, version, settings.prefixes.override bindings⟩ middle ∧ middle.At second := by
  obtain ⟨prepared, binds, preparedAt⟩ :=
    Acceptance.exists_binds bound (fun _ _ => List.not_mem_nil) distinct here
  obtain ⟨middle, heads, middleAt⟩ := Acceptance.exists_heads headed
    (fun _ => body_first stated closes) preparedAt
  exact ⟨middle, (preamble_iff (Nat.lt_succ_self session.stream.ahead.length)).mpr
    ⟨bindings, prepared, binds, heads⟩, middleAt⟩

/-- A document that is spelled is read to its end in lenient mode, if the catalogue admits its
statements. -/
theorem exists_completes (settings : Settings) {bindings : List Binding} {ontology : Ontology}
    {statements : List Statement} {input : List Lexeme} {store : Catalogue}
    (spelled : Spelling.Document settings.prefixes bindings ontology statements input)
    (lenient : settings.strict = false) (explicit : session.store.policy = .explicit)
    (admits : session.store.Admits statements store) (here : session.At input) :
    ∃ found after, Completes settings session ontology found after ∧ after.store = store := by
  obtain ⟨iri, version, prefixes⟩ := ontology
  obtain ⟨distinct, rfl, first, second, third, fourth, bound, headed, stated, closes, ended⟩ := spelled
  have checks : settings.checks = .lenient := by simp [Settings.checks, lenient]
  obtain ⟨middle, read, middleAt⟩ := exists_preamble bound distinct headed stated closes here
  have unchanged := read.grows.fixed explicit
  rw [← unchanged] at admits explicit
  obtain ⟨accepted, last, chain, lastAt, rfl⟩ := Acceptance.exists_accepted
    ⟨_, limit middle⟩ stated admits explicit middleAt (Nat.lt_succ_self middle.stream.ahead.length)
  obtain ⟨closed, close, ahead⟩ :=
    Acceptance.reads_closing settings.checks ⟨_, limit middle⟩ closes lastAt
  obtain ⟨after, finish⟩ :=
    Acceptance.reads_ending settings.checks ended (close.atAhead lastAt ahead)
  have policy : last.store.policy = .explicit := admits.policy.trans explicit
  refine ⟨_, after, .intro (checks ▸ read) (checks ▸ chain) close finish rfl, ?_⟩
  exact (close.grows.trans finish.grows).fixed policy

theorem run_body {σ : Type} [Store σ] {checks : Checks} {scope : Scope} {limit : Nat}
    {session last closed : Session σ} {accepted : List (Statement × Session σ)}
    (chain : Accepted checks scope session accepted last)
    (close : Reads checks (Grammar.statement? scope) last none closed)
    (enough : session.stream.ahead.length < limit) :
    (Grammar.body scope limit).run (Session.writer checks) session = (.ok (), closed) := by
  obtain ⟨few, -, fits, same⟩ := chain.body_run enough
  obtain ⟨few, rfl⟩ := Nat.exists_eq_succ_of_ne_zero (Nat.ne_zero_of_lt fits)
  rw [same, body_succ, Program.run_bind, Writing.run_ofReading, close]
  rfl

theorem Completes.perform_eq {σ : Type} [Store σ] {settings : Settings} {session after : Session σ}
    {ontology : Ontology} {statements : List Statement}
    (completes : Completes settings (prepare settings session) ontology statements after) :
    perform settings session = (some ontology, .ok ontology, after) := by
  obtain ⟨read, chain, close, finish, -⟩ := completes
  have ran : (Grammar.body _ (limit _)).run (Session.writer settings.checks) _ = _ :=
    run_body chain close (Nat.lt_succ_self _)
  unfold perform
  dsimp only
  rw [read]
  dsimp only
  rw [statements_run, ran]
  dsimp only
  rw [finish]
  rfl

theorem Completes.told {σ : Type} [Store σ] {settings : Settings} {session after : Session σ}
    {ontology : Ontology} {statements : List Statement}
    (completes : Completes settings (prepare settings session) ontology statements after)
    (tracks : session.stream.Tracks none false) :
    (readInto settings session).result = .ok ontology ∧
      (readInto settings session).session.store = after.store := by
  have met := perform_met settings tracks
  rw [readInto_eq_conclude]
  rw [completes.perform_eq] at met ⊢
  exact ⟨conclude_result_ok met ontology, rfl⟩

end Document

end OwlFunctional
