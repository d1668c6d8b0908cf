import OwlFunctional.Proofs.Recognition.Document
import OwlFunctional.Proofs.Scanning
import OwlFunctional.Proofs.Utf8

/-! Faults of the input: what is told of them, and when.

A fault is met by the first step that looks at the end of the input. From then on the stream knows
it, so a document is told as a success, or as malformed, only if no fault was met.
-/

set_option autoImplicit false

namespace OwlFunctional

namespace Stream

def looksWithin : Nat → Stream → Bool
  | 0, _ => false
  | count + 1, stream => stream.reachesEnd || looksWithin count stream.scan.2

/-- A fault is pending until the end was looked at, and met from then on. -/
structure Tracks (fault : Option Fault) (looked : Bool) (stream : Stream) : Prop where
  pending : stream.pending = if looked then none else fault
  met : stream.met = if looked then fault else none

variable {fault : Option Fault} {looked : Bool} {stream : Stream}

theorem Tracks.scan (tracks : Tracks fault looked stream) :
    Tracks fault (looked || stream.reachesEnd) stream.scan.2 := by
  obtain ⟨pending, met⟩ := tracks
  cases looked <;> cases reached : stream.reachesEnd <;>
    constructor <;> simp_all [Stream.scan, meet]

theorem Tracks.unscan (tracks : Tracks fault looked stream) :
    Tracks fault looked stream.unscan := by
  unfold Stream.unscan
  split
  · exact ⟨tracks.pending, tracks.met⟩
  · exact tracks

theorem Tracks.skip (tracks : Tracks fault looked stream) (count : Nat) :
    Tracks fault (looked || looksWithin count stream) (stream.skip count) := by
  induction count generalizing looked stream with
  | zero => simpa [looksWithin, Stream.skip] using tracks
  | succ count ih =>
    rw [looksWithin, ← Bool.or_assoc]
    exact ih tracks.scan

theorem scan_skip (count : Nat) (stream : Stream) :
    (stream.skip count).scan.2 = stream.skip (count + 1) := by
  induction count generalizing stream with
  | zero => rfl
  | succ count ih => exact ih stream.scan.2

theorem Tracks.token (tracks : Tracks fault looked stream) :
    Tracks fault (looked || looksWithin (stream.leadingTrivia + 1) stream) stream.token.2 := by
  rw [Stream.token, scan_skip]
  exact tracks.skip _

theorem token_pending {stream : Stream} (exhausted : significant stream.ahead = []) :
    stream.token.2.pending = none := by
  have last : (stream.skip stream.leadingTrivia).ahead = [] := by
    rw [skip_leadingTrivia_ahead, exhausted]
  simp [Stream.token, Stream.scan, reachesEnd, last, meet]

/-- How many steps the search for the next piece of a language tag makes. -/
def subtagSteps (stream : Stream) : Nat :=
  if stream.scan.1.lexeme = ⟨.illegal, "-"⟩ then 2 else 1

theorem Tracks.subtag (tracks : Tracks fault looked stream) :
    Tracks fault (looked || looksWithin stream.subtagSteps stream) stream.subtag.2 := by
  have first := tracks.skip 1
  have second := tracks.skip 2
  simp only [Stream.subtag, subtagSteps]
  by_cases hyphen : stream.scan.1.lexeme = ⟨.illegal, "-"⟩
  · rw [if_pos hyphen, if_pos hyphen]
    split
    · exact second
    · exact second
  · rw [if_neg hyphen, if_neg hyphen]
    split
    · exact first
    · exact first.unscan

theorem ofInput_tracks (source : String) (input : Input) :
    (ofInput source input).Tracks input.fault false := ⟨rfl, rfl⟩

theorem ofInput_tracks_none (source : String) {input : Input} (sound : input.fault = none) :
    (ofInput source input).Tracks none false := sound ▸ ofInput_tracks source input

theorem ofInput_noEof (source : String) (input : Input) : (ofInput source input).NoEof :=
  fun lexeme member => (Lexeme.lexemesOf_formed input.chars lexeme member).ne_eof

end Stream

/-- Whether the answer to a query looks at the end of the input. -/
def Query.looksAtEnd : Query → Stream → Bool
  | .token, stream | .peek, stream => stream.looksWithin (stream.leadingTrivia + 1)
  | .subtag, stream => stream.looksWithin stream.subtagSteps
  | _, _ => false

def Command.looksAtEnd : Command → Stream → Bool
  | .query asked, stream => asked.looksAtEnd stream
  | .declare .., _ | .add _, _ => false

section

variable {σ α : Type} [Store σ] {checks : Checks} {fault : Option Fault}

theorem Session.answer_tracks (query : Query) (session : Session σ) {looked : Bool}
    (tracks : session.stream.Tracks fault looked) :
    (answer checks query session).2.stream.Tracks fault
      (looked || query.looksAtEnd session.stream) := by
  have unmoved : session.stream.Tracks fault (looked || false) := by simpa using tracks
  cases query with
  | token => exact tracks.token
  | peek => exact tracks.token.unscan
  | unscan => exact unmoved.unscan
  | subtag => exact tracks.subtag
  | find kind iri =>
    simp only [answer]
    split <;> exact unmoved
  | here => exact unmoved
  | checkIri text => exact unmoved
  | checkTag tag => exact unmoved
  | report event => exact unmoved

theorem Session.command_tracks (command : Command) (session : Session σ) {looked : Bool}
    (tracks : session.stream.Tracks fault looked) :
    ((writer checks).answer command session).2.stream.Tracks fault
      (looked || command.looksAtEnd session.stream) := by
  have unmoved : session.stream.Tracks fault (looked || false) := by simpa using tracks
  cases command with
  | query query => exact answer_tracks query session tracks
  | declare declaration annotations =>
    simp only [writer]
    split <;> exact unmoved
  | add annotated => exact unmoved

omit [Store σ] in
theorem Program.run_tracks {R : Type} [Signature R] {handler : Handler R (Session σ)}
    {looks : R → Stream → Bool}
    (step : ∀ request session {looked}, Stream.Tracks fault looked session.stream →
      Stream.Tracks fault (looked || looks request session.stream)
        (handler.answer request session).2.stream)
    (program : Program R α) (session : Session σ) {looked : Bool}
    (tracks : session.stream.Tracks fault looked) :
    (program.run handler session).2.stream.Tracks fault
      (looked || (program.requests handler session).any fun request =>
        looks request.1 request.2.stream) := by
  induction program generalizing session looked with
  | done value => simpa [run, requests] using tracks
  | fail error => simpa [run, requests] using tracks
  | ask request refused next ih =>
    have first := step request session tracks
    simp only [run, requests, List.any_cons, ← Bool.or_assoc]
    rcases answered : handler.answer request session with ⟨reason | reply, after⟩
    · rw [answered] at first
      simpa using first
    · rw [answered] at first
      exact ih reply after first

end

namespace Document

variable {σ : Type} [Store σ]

def looksAtEnd (settings : Settings) (session : Session σ) : Bool :=
  (requests settings session).any fun request => request.1.looksAtEnd request.2.stream

theorem perform_tracks {fault : Option Fault} (settings : Settings) {session : Session σ}
    (tracks : session.stream.Tracks fault false) :
    (perform settings session).2.2.stream.Tracks fault (looksAtEnd settings session) := by
  have prepared : (prepare settings session).stream.Tracks fault false := by
    rw [prepare_eq]
    exact ⟨tracks.pending, tracks.met⟩
  unfold looksAtEnd requests perform
  dsimp only
  generalize prepare settings session = start at prepared
  have first : Stream.Tracks _ _ ((preamble settings start).run
      (Session.reader settings.checks) start).2.stream :=
    Program.run_tracks Session.answer_tracks (preamble settings start) start prepared
  rw [List.any_append, List.any_map]
  rcases read : (preamble settings start).run (Session.reader settings.checks) start with
    ⟨error | ontology, middle⟩
  · rw [read, Bool.false_or] at first
    rw [List.any_nil, Bool.or_false]
    exact first
  · rw [read, Bool.false_or] at first
    exact Program.run_tracks Session.command_tracks (statements ontology middle) middle first

theorem perform_met (settings : Settings) {session : Session σ}
    (tracks : session.stream.Tracks none false) :
    (perform settings session).2.2.stream.met = none :=
  (perform_tracks settings tracks).met.trans (ite_self _)

theorem perform_ofInput_met (settings : Settings) (source : String) {input : Input}
    (sound : input.fault = none) (store : σ) :
    (perform settings ⟨.ofInput source input, store⟩).2.2.stream.met = none :=
  perform_met settings (Stream.ofInput_tracks_none source sound)

theorem Completes.pending {settings : Settings} {start after : Session Catalogue}
    {ontology : Ontology} {statements : List Statement}
    (completes : Completes settings start ontology statements after)
    (noEof : start.stream.NoEof) : after.stream.pending = none := by
  obtain ⟨read, chain, close, finish, -⟩ := completes
  have middleAt := read.atItself ⟨rfl, noEof⟩
  obtain ⟨⟨rest, -, lastAt⟩, -⟩ := Recognition.accepted_spelled chain middleAt
  have closedAt := close.atItself lastAt
  have exhausted := Recognition.ending_spelled finish closedAt
  obtain ⟨next, between, scan, finish⟩ := Reads.bind_iff.mp finish
  obtain ⟨rfl, rfl⟩ := Reads.token_iff.mp scan
  split at finish
  · obtain ⟨-, rfl⟩ := Reads.pure_iff.mp finish
    exact Stream.token_pending exhausted
  · simp at finish

theorem Completes.looked_or {settings : Settings} {start after : Session Catalogue}
    {ontology : Ontology} {statements : List Statement} {fault : Option Fault} {looked : Bool}
    (completes : Completes settings start ontology statements after)
    (noEof : start.stream.NoEof) (tracks : after.stream.Tracks fault looked) :
    looked = true ∨ fault = none := by
  have pending := tracks.pending
  rw [completes.pending noEof] at pending
  cases looked with
  | true => exact .inl rfl
  | false => exact .inr pending.symm

omit [Store σ] in
/-- A fault is told exactly if it was met, whatever became of the document. -/
theorem conclude_fault_iff {header : Option Ontology} {result : Except SyntaxError Ontology}
    {after : Session σ} {fault : Fault} :
    (conclude header result after).result = .error (.fault fault) ↔
      after.stream.met = some fault := by
  cases met : after.stream.met with
  | none =>
    cases result with
    | error error => simp [conclude_result_error met]
    | ok ontology => simp [conclude_result_ok met]
  | some other => simp [conclude, Stream.takeFault, met]

omit [Store σ] in
theorem conclude_malformed_iff {header : Option Ontology} {result : Except SyntaxError Ontology}
    {after : Session σ} {error : SyntaxError} :
    (conclude header result after).result = .error (.malformed error) ↔
      after.stream.met = none ∧ result = .error error := by
  cases met : after.stream.met with
  | none =>
    cases result with
    | error found => simp [conclude_result_error met]
    | ok ontology => simp [conclude_result_ok met]
  | some fault => simp [conclude, Stream.takeFault, met]

omit [Store σ] in
theorem prepare_begins (settings : Settings) {session : Session σ} {input : List Lexeme}
    (begins : session.Begins input) : (prepare settings session).Begins input := by
  rw [prepare_eq]
  exact ⟨begins.ahead, begins.noEof, begins.fresh⟩

omit [Store σ] in
theorem begins_ofInput (source : String) (input : Input) (store : σ) :
    Session.Begins ⟨.ofInput source input, store⟩ (Lexeme.lexemesOf input.chars) :=
  ⟨rfl, Stream.ofInput_noEof source input, rfl⟩

theorem opened_begins (settings : Settings) (source : String) (input : Input) :
    (prepare settings (opened settings source input)).Begins (Lexeme.lexemesOf input.chars) :=
  prepare_begins settings (begins_ofInput source input _)

/-- No input is cut short in silence. A success is told of a text that the reader delivered to its
end, and all its lexemes are those of the document. A fault is told exactly if there is one and the
end was looked at, whatever became of the document till then, together with what was read. -/
theorem read_tells_faults (settings : Settings) (source : String) (input : Input) :
    (∀ ontology, (read settings source input).result = .ok ontology →
      input.failure = none ∧ input.bytes = (String.ofList input.chars).toUTF8.toList ∧
      (∃ written, List.Forall₂ Lexeme.Written (Lexeme.lexemesOf input.chars) written ∧
        written.flatten = input.chars) ∧
      ∃ bindings statements, Spelling.Document settings.prefixes bindings ontology statements
        (Lexeme.lexemesOf input.chars)) ∧
    (∀ fault, input.fault = some fault →
      input.failure = some fault ∨ fault = .notUtf8 ∧ ¬ input.IsText) ∧
    (∀ fault, (read settings source input).result = .error (.fault fault) ↔
      input.fault = some fault ∧ looksAtEnd settings (opened settings source input) = true) ∧
    (∀ error, (read settings source input).result = .error (.malformed error) →
      input.fault = none ∨ looksAtEnd settings (opened settings source input) = false) ∧
    ∃ header accepted last extra result after,
      Accounts settings (opened settings source input) header accepted last extra result after ∧
      (read settings source input).ontology = header ∧
      (read settings source input).session.store = after.store ∧
      ∀ ontology fault, result = .ok ontology → input.fault = some fault →
        (read settings source input).result = .error (.fault fault) := by
  obtain ⟨header, accepted, last, extra, result, after, accounts⟩ :=
    exists_accounts settings (opened settings source input)
  obtain ⟨ahead, noEof, -⟩ := opened_begins settings source input
  have outcome : read settings source input = conclude header result after := accounts.outcome
  have tracks : after.stream.Tracks input.fault
      (looksAtEnd settings (opened settings source input)) := by
    have opened : (opened settings source input).stream.Tracks input.fault false :=
      Stream.ofInput_tracks source input
    have performed := perform_tracks settings opened
    rwa [accounts.performed] at performed
  rw [outcome]
  refine ⟨fun ontology ok => ?_, fun fault => Input.fault_cases, fun fault => ?_, fun error wrong => ?_,
    header, accepted, last, extra, result, after, accounts, rfl, rfl,
    fun ontology fault complete found => ?_⟩
  · obtain ⟨unmet, rfl⟩ := conclude_ok_iff.mp ok
    have completes := accounts.course.completes.1
    -- A complete document was read to its end, where a fault would have been met.
    have sound : input.fault = none := by
      rcases completes.looked_or noEof tracks with looked | sound
      · rw [← unmet, tracks.met, if_pos looked]
      · exact sound
    obtain ⟨ended, isText⟩ := Input.fault_eq_none_iff.mp sound
    obtain ⟨⟨bindings, spelled⟩, -⟩ := completes.spelled noEof
    exact ⟨ended, Input.toUTF8_chars isText, Lexeme.lexemesOf_covers input.chars, bindings, _,
      ahead ▸ spelled⟩
  · rw [conclude_fault_iff, tracks.met]
    split
    · next looked => simp [looked]
    · next unlooked => simp [unlooked]
  · have unmet := (conclude_malformed_iff.mp wrong).1
    rw [tracks.met] at unmet
    split at unmet
    · exact .inl unmet
    · next unlooked => exact .inr (by simpa using unlooked)
  · subst complete
    rw [conclude_fault_iff, tracks.met]
    rcases accounts.course.completes.1.looked_or noEof tracks with looked | sound
    · rw [if_pos looked, found]
    · simp [sound] at found

end Document

end OwlFunctional
