import OwlFunctional.Proofs.Faults
import OwlFunctional.Proofs.LineEnds
import OwlFunctional.Proofs.Termination

/-! Where errors stand in a text.

A program takes the positions of its errors from replies only, and every reply gives the place of
some lexeme. So an error stands at a point between two lexemes. Its line and its head are made from
the lexemes before that point. They are those of the text, except for strings: the quotes of a string
are missing in a head, and a line end inside of a string is not counted.
-/

set_option autoImplicit false

namespace OwlFunctional

open Lexeme

/-! ## Replies -/

def Position.Among (source : String) (lexemes : List Lexeme) (position : Position) : Prop :=
  ∃ index, position = (scannedAt source lexemes index).position

def Session.Follows {σ : Type} (source : String) (lexemes : List Lexeme) (session : Session σ) :
    Prop := ∃ cursor, session.stream.Stands source lexemes cursor

section

variable {source : String} {lexemes : List Lexeme}

theorem Scanned.Alike.placed {scanned : Scanned} {index : Nat}
    (found : scanned = scannedAt source lexemes index) :
    Scanned.Alike (fun position _ => position.Among source lexemes) scanned scanned :=
  ⟨rfl, index, congrArg Scanned.position found⟩

theorem Stream.Stands.among {stream : Stream} {cursor : Cursor}
    (stands : stream.Stands source lexemes cursor) : stream.position.Among source lexemes :=
  ⟨cursor.index, congrArg Scanned.position stands.scanned⟩

theorem Stream.Stands.subtag {stream : Stream} {cursor : Cursor}
    (noEof : ∀ lexeme ∈ lexemes, lexeme.token ≠ .eof)
    (stands : stream.Stands source lexemes cursor) :
    (∃ after, stream.subtag.2.Stands source lexemes after) ∧
      Subtag.Alike (fun position _ => position.Among source lexemes) stream.subtag.1
        stream.subtag.1 := by
  have first := stands.scan
  simp only [Stream.subtag]
  split
  · split
    · exact ⟨⟨_, first.scan⟩, .piece _⟩
    · exact ⟨⟨_, first.scan⟩, .broken (.placed first.scanned)⟩
  · split
    · exact ⟨⟨_, first⟩, .piece _⟩
    · exact ⟨⟨_, first.unscan_read noEof⟩, .absent stands.among⟩

variable {σ : Type} [Store σ] {checks : Checks} {session : Session σ}

theorem Session.answer_among (noEof : ∀ lexeme ∈ lexemes, lexeme.token ≠ .eof) (query : Query)
    (follows : session.Follows source lexemes) :
    (Session.answer checks query session).2.Follows source lexemes ∧
      ∀ reply, (Session.answer checks query session).1 = .ok reply →
        query.Alike (fun position _ => position.Among source lexemes) reply reply := by
  obtain ⟨cursor, stands⟩ := follows
  cases query with
  | token =>
    obtain ⟨index, -, found, reached⟩ := stands.token
    exact ⟨⟨_, reached⟩, fun _ same => Except.ok.inj same ▸ .placed found⟩
  | peek =>
    obtain ⟨index, -, found, reached⟩ := stands.token
    exact ⟨⟨_, reached.unscan_read noEof⟩, fun _ same => Except.ok.inj same ▸ .placed found⟩
  | unscan =>
    -- Whether a lexeme may be put back is known to the cursor.
    obtain ⟨after, -, reached, -⟩ := Call.perform_moves checks noEof .unscan session stands
    exact ⟨⟨after, reached⟩, fun _ _ => rfl⟩
  | here =>
    exact ⟨⟨cursor, stands⟩, fun _ same => Except.ok.inj same ▸ stands.among⟩
  | subtag =>
    obtain ⟨reached, alike⟩ := stands.subtag noEof
    exact ⟨reached, fun _ same => Except.ok.inj same ▸ alike⟩
  | find kind iri =>
    refine ⟨?_, fun _ _ => rfl⟩
    simp only [Session.answer]
    split <;> exact ⟨cursor, stands⟩
  | checkIri text => exact ⟨⟨cursor, stands⟩, fun _ _ => rfl⟩
  | checkTag tag => exact ⟨⟨cursor, stands⟩, fun _ _ => rfl⟩
  | report event => exact ⟨⟨cursor, stands⟩, fun _ _ => rfl⟩

theorem Session.command_among (noEof : ∀ lexeme ∈ lexemes, lexeme.token ≠ .eof)
    (command : Command) (follows : session.Follows source lexemes) :
    ((Session.writer checks).answer command session).2.Follows source lexemes ∧
      ∀ reply, ((Session.writer checks).answer command session).1 = .ok reply →
        command.Alike (fun position _ => position.Among source lexemes) reply reply := by
  cases command with
  | query query => exact Session.answer_among noEof query follows
  | declare declaration annotations =>
    refine ⟨?_, fun _ _ => rfl⟩
    simp only [Session.writer]
    split <;> exact follows
  | add annotated => exact ⟨follows, fun _ _ => rfl⟩

end

/-! ## Places in a text -/

theorem Place.after_eof (place : Place) : place.after .eof = place := by
  simp [after, Lexeme.eof, weight]

theorem placeAt_eq_past_take (lexemes : List Lexeme) (index : Nat) :
    placeAt lexemes index = .past (lexemes.take index) := by
  induction index with
  | zero => simp [placeAt_zero, Place.past_nil]
  | succ index ih =>
    rw [placeAt_succ, ih, lexemeAt, List.take_add_one]
    cases lexemes[index]? with
    | none => simp [Place.after_eof]
    | some lexeme => simp [Place.past_concat]

namespace Position

/-- A position is the point after a text: its line counts the line ends, its head is the text after
the last of them, and its column counts that from one. -/
structure Marks (position : Position) (before : List Char) : Prop where
  line : position.line = Text.lineEnds before
  head : position.head.toList = Text.lastLine before
  column : position.column = (Text.lastLine before).length + 1

instance (position : Position) (before : List Char) : Decidable (position.Marks before) :=
  decidable_of_iff (position.line = Text.lineEnds before ∧
      position.head.toList = Text.lastLine before ∧
      position.column = (Text.lastLine before).length + 1)
    ⟨fun ⟨line, head, column⟩ => ⟨line, head, column⟩,
      fun ⟨line, head, column⟩ => ⟨line, head, column⟩⟩

/-- What a position tells of the text before a point: of the lines that ended, and of the line after
them. A line ends with a lexeme here. Line ends inside of strings are not counted, and quotes
are left out of the head. -/
structure Tells (position : Position) (ended line : List Char) : Prop where
  divided : lexemesOf (ended ++ line) = lexemesOf ended ++ lexemesOf line
  ends : ∀ lexeme ∈ (lexemesOf ended).getLast?, lexeme.token = .eol
  unended : ∀ lexeme ∈ lexemesOf line, lexeme.token ≠ .eol
  counted : position.line + quotedLineEnds (lexemesOf (ended ++ line)) =
    Text.lineEnds (ended ++ line)
  head : position.head.toList = textOf (lexemesOf line)

/-- A position is exact where it misses no line end and no quote. -/
theorem Tells.marks_iff {position : Position} {ended line : List Char}
    (tells : position.Tells ended line) :
    position.Marks (ended ++ line) ↔ quotedLineEnds (lexemesOf (ended ++ line)) = 0 ∧
      ∀ lexeme ∈ lexemesOf line, lexeme.token ≠ .string := by
  have counted := tells.counted
  have ends := isLineEnd_getLast tells.ends
  constructor
  · intro marks
    have none : quotedLineEnds (lexemesOf (ended ++ line)) = 0 := by
      rw [marks.line] at counted
      omega
    refine ⟨none, ?_⟩
    -- Nothing on the line ends it, so the head is all of it, with no room for a quote.
    rw [tells.divided, quotedLineEnds_append, Nat.add_eq_zero_iff] at none
    have last := Text.lastLine_append ends (plain_of_unended tells.unended none.2)
    have whole : textOf (lexemesOf line) = line := by rw [← tells.head, marks.head, last]
    have room := length_textOf_le line
    rw [whole] at room
    have unquoted : (lexemesOf line).countP (fun lexeme => lexeme.token = .string) = 0 := by omega
    simpa using List.countP_eq_zero.mp unquoted
  · rintro ⟨none, unquoted⟩
    have last := Text.lastLine_append ends
      (plain_of_unended tells.unended (quotedLineEnds_eq_zero unquoted))
    have head : position.head.toList = Text.lastLine (ended ++ line) := by
      rw [tells.head, textOf_lexemesOf unquoted, last]
    refine ⟨by omega, head, ?_⟩
    rw [column, ← head, String.length_toList]

theorem Tells.marks {position : Position} {ended line : List Char}
    (tells : position.Tells ended line)
    (unquoted : ∀ lexeme ∈ lexemesOf (ended ++ line), lexeme.token ≠ .string) :
    position.Marks (ended ++ line) := by
  refine tells.marks_iff.mpr ⟨quotedLineEnds_eq_zero unquoted, fun lexeme member => ?_⟩
  rw [tells.divided] at unquoted
  exact unquoted lexeme (List.mem_append_right _ member)

theorem exists_tells (source : String) (text : List Char) :
    ∃ ended line, text = ended ++ line ∧
      Tells ⟨source, (Place.past (lexemesOf text)).line, (Place.past (lexemesOf text)).head⟩
        ended line := by
  -- The line starts after the last lexeme that ends one.
  let within : Lexeme → Bool := fun lexeme => lexeme.token ≠ .eol
  have divided : (lexemesOf text).rdropWhile within ++ (lexemesOf text).rtakeWhile within =
      lexemesOf text := List.rdropWhile_append_rtakeWhile
  obtain ⟨ended, line, whole, before, after⟩ := exists_texts_of_append divided.symm
  refine ⟨ended, line, whole, ?_, fun lexeme last => ?_, fun lexeme member => ?_, ?_, ?_⟩
  · rw [← whole, before, after, divided]
  · rw [before] at last
    have some : (lexemesOf text).rdropWhile within ≠ [] := by
      intro none
      simp [none] at last
    rw [List.getLast?_eq_some_getLast some] at last
    obtain rfl := Option.some.inj last
    simpa [within] using List.rdropWhile_last_not within _ some
  · rw [after] at member
    simpa [within] using List.mem_rtakeWhile_imp member
  · rw [← whole]
    exact lineEnds_eq text
  · rw [after]
    exact String.toList_join.trans (List.flatMap_map ..)

theorem Among.exists_tells {source : String} {text : List Char} {position : Position}
    (among : position.Among source (lexemesOf text)) :
    ∃ ended line, Boundary text (ended ++ line) ∧ position.source = source ∧
      position.Tells ended line := by
  obtain ⟨index, rfl⟩ := among
  obtain ⟨before, boundary, covered⟩ :=
    exists_boundary_of_append (List.take_append_drop index (lexemesOf text)).symm
  obtain ⟨ended, line, rfl, tells⟩ := Position.exists_tells source before
  refine ⟨ended, line, boundary, rfl, ?_⟩
  rw [scannedAt, placeAt_eq_past_take, ← covered]
  exact tells

end Position

/-! ## Runs -/

namespace Document

variable {σ : Type} [Store σ] {source : String} {lexemes : List Lexeme} {session : Session σ}
  {settings : Settings} {error : SyntaxError}

omit [Store σ] in
theorem prepare_follows (settings : Settings) (follows : session.Follows source lexemes) :
    (prepare settings session).Follows source lexemes := by
  obtain ⟨cursor, stands⟩ := follows
  rw [prepare_eq]
  exact ⟨cursor, stands.named, stands.ahead, stands.place, stands.last, stands.rest⟩

theorem preamble_among (noEof : ∀ lexeme ∈ lexemes, lexeme.token ≠ .eof) (settings : Settings)
    (follows : session.Follows source lexemes) :
    let run := (preamble settings session).run (Session.reader settings.checks) session
    run.2.Follows source lexemes ∧
      ∀ error, run.1 = .error error → error.position.Among source lexemes := by
  have alike : Reading.Alike (fun position _ => position.Among source lexemes) Eq
      (preamble settings session) (preamble settings session) :=
    preamble_alike settings.prefixes [] (Nat.le_refl (limit session))
  exact alike.run_itself (Session.Follows source lexemes)
    (fun query _ => Session.answer_among noEof query) follows fun _ _ => preamble_unmet

theorem statements_among (noEof : ∀ lexeme ∈ lexemes, lexeme.token ≠ .eof) (ontology : Ontology)
    (checks : Checks) (follows : session.Follows source lexemes) :
    let run := (statements ontology session).run (Session.writer checks) session
    run.2.Follows source lexemes ∧
      ∀ error, run.1 = .error error → error.position.Among source lexemes := by
  have alike : Writing.Alike (fun position _ => position.Among source lexemes) Eq
      (statements ontology session) (statements ontology session) :=
    statements_alike ⟨rfl, Nat.le_refl (limit session)⟩
  exact alike.run_itself (Session.Follows source lexemes)
    (fun command _ => Session.command_among noEof command) follows fun _ _ => statements_unmet

theorem perform_among (noEof : ∀ lexeme ∈ lexemes, lexeme.token ≠ .eof)
    (follows : session.Follows source lexemes)
    (failed : (perform settings session).2.1 = .error error) :
    error.position.Among source lexemes := by
  have start := prepare_follows settings follows
  rcases perform_failed failed with ⟨after, failed⟩ | ⟨ontology, middle, after, read, failed⟩
  · have first := preamble_among noEof settings start
    rw [failed] at first
    exact first.2 error rfl
  · have first := preamble_among noEof settings start
    rw [read] at first
    have second := statements_among noEof ontology settings.checks first.1
    rw [failed] at second
    exact second.2 error rfl

/-- An error stands at a point between two lexemes of the text. Its head is the text after a line end
before that point without the quotes of strings, and its line leaves out the line ends inside of
strings. It is exact where there are none of these. -/
theorem malformed_at_boundary {store : σ} {input : Input}
    (malformed : (readInto settings ⟨.ofInput source input, store⟩).result =
      .error (.malformed error)) :
    ∃ ended line, Boundary input.chars (ended ++ line) ∧ error.position.source = source ∧
      error.position.Tells ended line ∧
      (error.position.Marks (ended ++ line) ↔
        quotedLineEnds (lexemesOf (ended ++ line)) = 0 ∧
          ∀ lexeme ∈ lexemesOf line, lexeme.token ≠ .string) := by
  rw [readInto_eq_conclude, conclude_malformed_iff] at malformed
  have noEof : ∀ lexeme ∈ lexemesOf input.chars, lexeme.token ≠ .eof :=
    fun lexeme member => (lexemesOf_formed input.chars lexeme member).ne_eof
  have among := perform_among noEof ⟨_, Stream.ofInput_stands source input false⟩ malformed.2
  obtain ⟨ended, line, boundary, named, tells⟩ := among.exists_tells
  exact ⟨ended, line, boundary, named, tells, tells.marks_iff⟩

theorem malformed_at_boundary_on_last_line :
    let text := "Prefix(:=<a:>)\r\n# ä\r\nOntology(<o:o>)\tX"
    let error : SyntaxError :=
      ⟨.needed .endOfDocument ⟨.word, "X"⟩, [], ⟨"", 2, "Ontology(<o:o>)\t"⟩⟩
    (readInto {} ⟨.ofInput "" (.ofString text), Catalogue.empty .explicit⟩).result =
        .error (.malformed error) ∧
      ∃ before, Boundary text.toList before ∧ error.position.Marks before := by
  intro text error
  have malformed : (readInto {} ⟨.ofInput "" (.ofString text), Catalogue.empty .explicit⟩).result =
      .error (.malformed error) := by decide +kernel
  obtain ⟨ended, line, boundary, -, tells, -⟩ := malformed_at_boundary malformed
  rw [Input.chars_ofString] at boundary
  refine ⟨malformed, ended ++ line, boundary, tells.marks fun lexeme member => ?_⟩
  have unquoted : ∀ lexeme ∈ lexemesOf text.toList, lexeme.token ≠ .string := by decide +kernel
  obtain ⟨after, -, divided⟩ := boundary
  rw [divided] at unquoted
  exact unquoted lexeme (List.mem_append_left _ member)

/-- Two errors after a string. Their heads leave out its quotes. Where a line ends inside of it the
line falls short as well, and the head starts before the line end. -/
theorem read_misplaces_errors_after_strings :
    let opening := "Ontology(<o:o>DataPropertyAssertion(<a:p> <a:i> "
    let outcome (text : String) := read { policy := .implicit } "" (.ofString text)
    let error (head : String) : SyntaxError :=
      ⟨.expected .closeParen ⟨.word, "z"⟩, [], ⟨"", 0, opening ++ head⟩⟩
    (outcome (opening ++ "\"x\" z))")).result = .error (.malformed (error "x ")) ∧
      (∀ before ∈ (opening ++ "\"x\" z))").toList.inits, ¬ (error "x ").position.Marks before) ∧
      (outcome (opening ++ "\"x\ny\" z))")).result = .error (.malformed (error "x\ny ")) ∧
      ∀ before ∈ (opening ++ "\"x\ny\" z))").toList.inits,
        ¬ (error "x\ny ").position.Marks before := by
  decide +kernel

end Document

end OwlFunctional
