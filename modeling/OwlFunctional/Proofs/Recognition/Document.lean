import OwlFunctional.Proofs.Recognition.Statement
import OwlFunctional.Proofs.Writes

/-! A document that is accepted is spelled by its lexemes, from the first one to the last. -/

set_option autoImplicit false

namespace OwlFunctional

namespace Catalogue

/-- Later catalogues know all entities of earlier ones. -/
def Keeps (before after : Catalogue) : Prop :=
  ∀ declaration, before.Lists declaration → after.Lists declaration

theorem Grows.keeps {before after : Catalogue} (grows : before.Grows after) : before.Keeps after :=
  grows.lists

theorem Keeps.trans {first second third : Catalogue} (before : first.Keeps second)
    (after : second.Keeps third) : first.Keeps third :=
  fun declaration listed => after declaration (before declaration listed)

theorem Keeps.holds {before after : Catalogue} (keeps : before.Keeps after)
    {references : List Declaration} (held : ∀ declaration ∈ references, before.Holds declaration) :
    ∀ declaration ∈ references, after.Holds declaration :=
  fun declaration member => (held declaration member).imp_right (keeps declaration)

theorem keeps_declare (declaration : Declaration) (annotations : List Annotation)
    (catalogue : Catalogue) :
    catalogue.Keeps (catalogue.declare declaration annotations).2 := by
  intro other listed
  unfold declare
  split
  · exact listed
  · dsimp only
    split
    · exact lists_list catalogue _ _ listed
    · exact lists_list catalogue _ _ listed

/-- What an axiom says about properties touches nothing but the characteristics. -/
theorem note_eq (statement : Axiom) (catalogue : Catalogue) :
    catalogue.note statement = { catalogue with traits := (catalogue.note statement).traits } := by
  have named (property : ObjectPropertyExpression) (characteristic : Characteristic)
      (table : Catalogue) : table.characterize property characteristic =
        { table with traits := (table.characterize property characteristic).traits } := by
    cases property <;> rfl
  cases statement with
  | objectCharacteristic characteristic property => exact named _ _ _
  | inverseObjectProperties first second =>
    simp only [note]
    rw [named second, named first]
  | functionalDataProperty property => cases property <;> rfl
  | _ => rfl

theorem keeps_add (annotated : AnnotatedAxiom) (catalogue : Catalogue) :
    catalogue.Keeps (catalogue.add annotated) := by
  intro declaration listed
  unfold add
  rw [note_eq]
  exact listed

def write : Statement → Catalogue → Bool × Catalogue
  | .declaration declared annotations _, catalogue => catalogue.declare declared annotations
  | .assertion annotated, catalogue => (true, catalogue.add annotated)

theorem keeps_write (statement : Statement) (catalogue : Catalogue) :
    catalogue.Keeps (catalogue.write statement).2 := by
  cases statement with
  | declaration declared annotations position => exact catalogue.keeps_declare declared annotations
  | assertion annotated => exact catalogue.keeps_add annotated

end Catalogue

theorem wrote_iff {checks : Checks} {statement : Statement} {session after : Session Catalogue} :
    (Grammar.write statement).run (Session.writer checks) session = (.ok (), after) ↔
      session.store.write statement = (true, after.store) ∧ after.stream = session.stream := by
  obtain ⟨stream, store⟩ := session
  obtain ⟨afterStream, afterStore⟩ := after
  cases statement with
  | declaration declaration annotations position =>
    simp only [Grammar.write, Writing.declare, Program.run, Session.writer, Store.declare,
      Catalogue.write]
    rcases store.declare declaration annotations with ⟨_ | _, taken⟩
    · simp
    · simp [and_comm, eq_comm]
  | assertion annotated =>
    simp only [Grammar.write, Writing.add, Program.run, Session.writer, Store.add, Catalogue.write]
    simp [and_comm, eq_comm]

theorem write_keeps {checks : Checks} {statement : Statement} {session after : Session Catalogue}
    (wrote : (Grammar.write statement).run (Session.writer checks) session = (.ok (), after)) :
    session.store.Keeps after.store := by
  have kept := session.store.keeps_write statement
  rwa [(wrote_iff.mp wrote).1] at kept

namespace Recognition

open Spelling Grammar

variable {checks : Checks} {session after : Session Catalogue} {input : List Lexeme}

theorem sees_at {token : Token} (sees : Sees checks token session after) (here : session.At input) :
    after.At input := by
  obtain ⟨scanned, between, scan, -, back⟩ := sees
  exact scan.unscan_at back here

theorem boundSpace_spelled {first firstRead : Scanned} {label given : String} {space : Iri}
    (read : Reads checks (boundSpace first given) session (firstRead, label, space) after)
    (here : session.At input) :
    given = label ∧ ∃ second third, Mark .colon input second ∧ Mark .equals second third ∧
      Takes ⟨.iri, space.render⟩ third after.stream.ahead := by
  obtain ⟨_, marked, marks, read⟩ := Reads.bind_iff.mp read
  obtain ⟨between, colon, equals⟩ := Reads.expectBoth_iff.mp marks
  obtain ⟨next, ended, scan, read⟩ := Reads.bind_iff.mp read
  have betweenAt := colon.atItself here
  have markedAt := equals.atItself betweenAt
  dsimp only at read
  split at read
  · next kind =>
    obtain ⟨iri, bracketed, bracket, read⟩ := Reads.bind_iff.mp read
    obtain ⟨written, -, rfl⟩ := bracketedIri_iff.mp bracket
    obtain ⟨same, rfl⟩ := Reads.pure_iff.mp read
    obtain ⟨-, rfl, rfl⟩ : first = firstRead ∧ given = label ∧ iri = space := by simpa using same
    have takes := scan.takes_token markedAt kind (by simp)
    rw [written] at takes
    exact ⟨rfl, _, _, expect_mark colon here (by simp), expect_mark equals betweenAt (by simp),
      takes⟩
  · obtain ⟨_, _, failed, _⟩ := Reads.bind_iff.mp read
    simp at failed

theorem prefixBinding_spelled {labels : List String} {binding : Binding}
    (read : Reads checks (prefixBinding labels) session binding after) (here : session.At input) :
    Spelling.Bound binding input after.stream.ahead := by
  obtain ⟨⟨first, label, space⟩, ended, enclosed, read⟩ := Reads.bind_iff.mp read
  dsimp only at read
  split at read
  · simp at read
  · obtain ⟨_, reported, report, read⟩ := Reads.bind_iff.mp read
    obtain rfl := Reads.report_iff.mp report
    obtain ⟨rfl, rfl⟩ := Reads.pure_iff.mp read
    obtain ⟨start, opened, inner, opens, openedAt, inside, -, closes⟩ := enclosed_parts enclosed here
    obtain ⟨mark, begun, scan, inside⟩ := Reads.bind_iff.mp inside
    dsimp only at inside
    split at inside
    · -- The colon is the first token, so it was put back and the label is empty.
      obtain ⟨_, back, unscan, inside⟩ := Reads.bind_iff.mp inside
      have backAt := scan.unscan_at unscan openedAt
      obtain ⟨rfl, second, third, colon, equals, takes⟩ := boundSpace_spelled inside backAt
      exact ⟨_, _, _, _, _, opens, .empty, colon, equals, takes, closes (inside.atItself backAt)⟩
    · next kind =>
      have begunAt := scan.atItself openedAt
      obtain ⟨rfl, second, third, colon, equals, takes⟩ := boundSpace_spelled inside begunAt
      exact ⟨_, _, _, _, _, opens, .word (scan.takes_token openedAt kind (by simp)), colon, equals,
        takes, closes (inside.atItself begunAt)⟩
    · obtain ⟨_, _, failed, _⟩ := Reads.bind_iff.mp inside
      simp at failed

theorem binds_spelled {labels : List String} {bindings : List Binding}
    (binds : Binds checks labels session bindings after) (here : session.At input) :
    ∃ rest, Sequence Spelling.Bound bindings input rest ∧ after.At rest := by
  induction binds generalizing input with
  | none => exact ⟨input, .nil, here⟩
  | more sees read others ih =>
    have seenAt := sees_at sees here
    obtain ⟨rest, sequence, afterAt⟩ := ih (read.atItself seenAt)
    exact ⟨rest, .cons (prefixBinding_spelled read seenAt) sequence, afterAt⟩

theorem heads_spelled {prefixes : Prefixes} {ontology : Ontology}
    (heads : Heads checks prefixes session ontology after) (here : session.At input) :
    ∃ rest, Header ontology.iri ontology.version input rest ∧ after.At rest := by
  obtain ⟨seen, sees, read⟩ := heads
  have seenAt := sees_at sees here
  obtain ⟨named, opened, begun, first, word, paren, scan, kind, written, -, versioned, -⟩ :=
    header_iff.mp read
  have namedAt := word.atItself seenAt
  have openedAt := paren.atItself namedAt
  have begunAt := scan.atItself openedAt
  have opens : Opens .ontology input opened.stream.ahead :=
    ⟨_, expect_mark word seenAt (by simp), expect_mark paren namedAt (by simp)⟩
  have takes := scan.takes_token openedAt kind (by simp)
  rw [written] at takes
  obtain ⟨iri, version, prefixes⟩ := ontology
  cases versioned with
  | absent look single =>
    exact ⟨_, ⟨_, _, opens, takes, rfl⟩, (look.peek_at begunAt).2⟩
  | present look another consume spelled allowed =>
    obtain ⟨sight, peekedAt⟩ := look.peek_at begunAt
    have again := consume.token_first peekedAt
    rw [← sight] at again
    have same : Takes ⟨.iri, _⟩ _ _ :=
      consume.takes_token peekedAt (by rw [Scanned.token, again]; exact another) (by simp)
    rw [Scanned.literal, again] at same
    rw [Scanned.literal] at spelled
    rw [spelled] at same
    exact ⟨_, ⟨_, _, opens, takes, same⟩, consume.atItself peekedAt⟩

theorem accepted_spelled {scope : Scope} {accepted : List (Statement × Session Catalogue)}
    (chain : Accepted checks scope session accepted after) (here : session.At input) :
    (∃ rest, Sequence (Sentence scope.prefixes) (accepted.map (·.1)) input rest ∧ after.At rest) ∧
      session.store.Keeps after.store ∧
      ∀ statement ∈ accepted.map (·.1), ∀ declaration ∈ statement.references,
        after.store.Holds declaration := by
  induction chain generalizing input with
  | none => exact ⟨⟨input, .nil, here⟩, fun _ => id, by simp⟩
  | @more statement others session read written last first wrote chain ih =>
    obtain ⟨spelled, held⟩ := statement?_spelled first here
    have sameStream := write_unmoved wrote
    have readAt := first.atItself here
    have writtenAt : written.At read.stream.ahead := by
      rw [← sameStream]
      exact ⟨rfl, sameStream ▸ readAt.noEof⟩
    obtain ⟨⟨rest, sequence, afterAt⟩, kept, othersHeld⟩ := ih writtenAt
    have keptRead := (write_keeps wrote).trans kept
    refine ⟨⟨rest, .cons spelled sequence, afterAt⟩, first.grows.keeps.trans keptRead, ?_⟩
    intro other member
    rcases List.mem_cons.mp member with rfl | member
    · exact keptRead.holds held
    · exact othersHeld other member

theorem ending_spelled (read : Reads checks ending session () after) (here : session.At input) :
    significant input = [] := by
  obtain ⟨next, between, scan, read⟩ := Reads.bind_iff.mp read
  split at read
  · next eof =>
    have first := scan.token_first here
    rw [← here.alike]
    cases ahead : significant session.stream.ahead with
    | nil => rfl
    | cons lexeme rest =>
      have visible := here.noEof.significant lexeme (by simp [ahead])
      rw [firstLexeme, ← here.alike, ahead] at first
      rw [Scanned.token, first] at eof
      exact absurd eof visible
  · simp at read

end Recognition

namespace Document

variable {σ : Type} [Store σ]

/-- A document is read to its end: the preamble, the accepted statements, the closing parenthesis
and the end of the input. -/
inductive Completes (settings : Settings) (start : Session σ) (ontology : Ontology)
    (statements : List Statement) (after : Session σ) : Prop where
  | intro {accepted : List (Statement × Session σ)} {middle last closed : Session σ} :
      Reads settings.checks (preamble settings start) start ontology middle →
      Accepted settings.checks ⟨ontology.prefixes, limit middle⟩ middle accepted last →
      Reads settings.checks (Grammar.statement? ⟨ontology.prefixes, limit middle⟩) last none closed →
      Reads settings.checks Grammar.ending closed () after →
      accepted.map (·.1) = statements → Completes settings start ontology statements after

theorem Course.completes {settings : Settings} {start last after : Session σ}
    {header : Option Ontology} {accepted : List (Statement × Session σ)}
    {extra : List (Command × Session σ)} {ontology : Ontology}
    (course : Course settings start header accepted last extra (.ok ontology) after) :
    Completes settings start ontology (accepted.map (·.1)) after ∧ header = some ontology := by
  generalize same : (Except.ok ontology : Except SyntaxError Ontology) = result at course
  cases course with
  | headless failed => simp at same
  | stopped read chain halts => simp at same
  | @closed _ _ final middle last closed _ read chain close finish =>
    cases final with
    | error error => simp [Except.map] at same
    | ok done =>
      obtain rfl := Except.ok.inj same
      exact ⟨.intro read chain close finish rfl, rfl⟩

section

omit [Store σ]

theorem conclude_result_error {header : Option Ontology} {after : Session σ}
    (unmet : after.stream.met = none) (error : SyntaxError) :
    (conclude header (.error error) after).result = .error (.malformed error) := by
  simp only [conclude, Stream.takeFault, unmet]
  rfl

theorem conclude_result_ok {header : Option Ontology} {after : Session σ}
    (unmet : after.stream.met = none) (ontology : Ontology) :
    (conclude header (.ok ontology) after).result = .ok ontology := by
  simp only [conclude, Stream.takeFault, unmet]
  rfl

/-- A success is told where a document was read to its end and no fault was met. -/
theorem conclude_ok_iff {header : Option Ontology} {result : Except SyntaxError Ontology}
    {after : Session σ} {ontology : Ontology} :
    (conclude header result after).result = .ok ontology ↔
      after.stream.met = none ∧ result = .ok ontology := by
  cases met : after.stream.met with
  | none =>
    cases result with
    | error error => simp [conclude_result_error met]
    | ok ontology => simp [conclude_result_ok met]
  | some fault => simp [conclude, Stream.takeFault, met]

end

theorem completes_of_ok {settings : Settings} {session : Session σ} {ontology : Ontology}
    (ok : (readInto settings session).result = .ok ontology) :
    ∃ statements after, Completes settings (prepare settings session) ontology statements after ∧
      (readInto settings session).session.store = after.store := by
  obtain ⟨header, accepted, last, extra, result, after, accounts⟩ :=
    exists_accounts settings session
  rw [accounts.outcome] at ok ⊢
  obtain ⟨-, rfl⟩ := conclude_ok_iff.mp ok
  exact ⟨_, after, accounts.course.completes.1, rfl⟩

theorem Completes.spelled {settings : Settings} {start after : Session Catalogue}
    {ontology : Ontology} {statements : List Statement}
    (completes : Completes settings start ontology statements after)
    (noEof : start.stream.NoEof) :
    (∃ bindings, Spelling.Document settings.prefixes bindings ontology statements
      start.stream.ahead) ∧
      ∀ statement ∈ statements, ∀ declaration ∈ statement.references,
        after.store.Holds declaration := by
  obtain ⟨read, chain, close, finish, rfl⟩ := completes
  obtain ⟨bindings, bound, binds, heads⟩ :=
    (preamble_iff (Nat.lt_succ_self start.stream.ahead.length)).mp read
  have startAt : start.At start.stream.ahead := ⟨rfl, noEof⟩
  obtain ⟨first, prefixed, boundAt⟩ := Recognition.binds_spelled binds startAt
  obtain ⟨second, headed, middleAt⟩ := Recognition.heads_spelled heads boundAt
  obtain ⟨⟨third, stated, lastAt⟩, -, held⟩ := Recognition.accepted_spelled chain middleAt
  have closes := Recognition.statement?_spelled close lastAt
  have ended := Recognition.ending_spelled finish (close.atItself lastAt)
  have later := close.grows.trans finish.grows
  exact ⟨⟨bindings, binds.fresh.2, heads.prefixes_eq, first, second, third, _, prefixed, headed,
    stated, closes, ended⟩, fun statement member => later.holds (held statement member)⟩

end Document

end OwlFunctional
