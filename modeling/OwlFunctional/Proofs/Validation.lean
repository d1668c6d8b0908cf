import OwlFunctional.Proofs.Termination

/-! Strict reading is lenient reading and the two checks.

An identifier in brackets and a language tag are checked where they are read, and nothing else is.
So what the checks say of a document that is read without them is told by its lexemes alone.
-/

set_option autoImplicit false

namespace OwlFunctional

open Spelling (Language TagRest)

/-! ## What is checked of lexemes -/

/-- A language tag is as long as it can be. -/
theorem Spelling.TagRest.unique {text other : String} {input rest after : List Lexeme}
    (tag : TagRest text input rest) (also : TagRest other input after) : text = other := by
  induction tag generalizing other with
  | done ended =>
    cases also with
    | done => rfl
    | hyphen => exact absurd (.inl rfl) (ended _ rfl)
    | negative sign => exact absurd (.inr ⟨rfl, sign⟩) (ended _ rfl)
  | hyphen goesOn _ ih =>
    cases also with
    | done ended => exact absurd (.inl rfl) (ended _ rfl)
    | hyphen _ more => rw [ih more]
  | negative sign _ ih =>
    cases also with
    | done ended => exact absurd (.inr ⟨rfl, sign⟩) (ended _ rfl)
    | negative _ more => rw [ih more]

theorem Spelling.Language.unique {tag other : String} {input rest after : List Lexeme}
    (spelled : Language (some tag) input rest) (also : Language (some other) input after) :
    tag = other := by
  cases spelled with
  | tag mark _ takes more =>
    cases also with
    | tag again _ word others =>
      obtain ⟨_, sign⟩ := mark
      obtain ⟨_, again⟩ := again
      obtain ⟨-, rfl⟩ := sign.unique again
      obtain ⟨same, rfl⟩ := takes.unique word
      obtain ⟨-, rfl⟩ := Lexeme.mk.inj same
      rw [more.unique others]

def Token.isChecked : Token → Bool
  | .iri | .atSign => true
  | _ => false

theorem Token.isChecked_of_isWord {token : Token} (isWord : token.isWord = true) :
    token.isChecked = false := by
  cases token <;> simp_all [Token.isWord, isChecked]

namespace Checks

/-- What is checked of a lexeme passes: the inside of an identifier in brackets, and the language
tag that an at sign starts. -/
structure Admits (checks : Checks) (lexeme : Lexeme) (rest : List Lexeme) : Prop where
  iri : lexeme.token = .iri →
    ∃ inside, Iri.unbracket? lexeme.literal = some inside ∧ checks.iri inside = none
  tag : lexeme.token = .atSign → ∀ {tag : String} {after : List Lexeme},
    Language (some tag) (lexeme :: rest) after → checks.tag tag = none

/-- All lexemes of an input pass, up to a rest of it. -/
def Vets (checks : Checks) (input rest : List Lexeme) : Prop :=
  ∀ lexeme after, lexeme :: after <:+ input → rest.length ≤ after.length →
    checks.Admits lexeme after

variable {checks : Checks} {lexeme : Lexeme} {input middle rest : List Lexeme}

theorem Admits.of_unchecked (unchecked : lexeme.token.isChecked = false) :
    checks.Admits lexeme rest where
  iri same := by simp [same, Token.isChecked] at unchecked
  tag same := by simp [same, Token.isChecked] at unchecked

theorem Vets.refl (checks : Checks) (input : List Lexeme) : checks.Vets input input := by
  intro lexeme after suffix long
  have short := suffix.length_le
  rw [List.length_cons] at short
  omega

theorem vets_trans_iff (first : middle <:+ input) (second : rest <:+ middle) :
    checks.Vets input rest ↔ checks.Vets input middle ∧ checks.Vets middle rest := by
  constructor
  · intro vets
    exact ⟨fun lexeme after suffix long => vets lexeme after suffix (second.length_le.trans long),
      fun lexeme after suffix long => vets lexeme after (suffix.trans first) long⟩
  · rintro ⟨before, behind⟩ lexeme after suffix long
    -- A lexeme is of the first part if all of the middle is still after it.
    by_cases inside : middle.length ≤ after.length
    · exact before lexeme after suffix inside
    · refine behind lexeme after (List.suffix_of_suffix_length_le suffix first ?_) long
      rw [List.length_cons]
      omega

theorem vets_cons : checks.Vets (lexeme :: rest) rest ↔ checks.Admits lexeme rest := by
  constructor
  · exact fun vets => vets lexeme rest (List.suffix_refl _) (Nat.le_refl _)
  · intro admits other after suffix long
    have same := suffix.eq_of_length_le (by simpa using long)
    obtain ⟨rfl, rfl⟩ := List.cons.inj same
    exact admits

theorem Vets.skip (unchecked : lexeme.token.isChecked = false) (suffix : rest <:+ input)
    (vets : checks.Vets input rest) : checks.Vets (lexeme :: input) rest :=
  (vets_trans_iff (List.suffix_cons _ _) suffix).mpr ⟨vets_cons.mpr (.of_unchecked unchecked), vets⟩

theorem vets_significant (checks : Checks) (input : List Lexeme) :
    checks.Vets input (significant input) := by
  induction input with
  | nil => exact .refl _ _
  | cons lexeme input ih =>
    cases trivia : lexeme.token.isTrivia with
    | false =>
      rw [significant_cons trivia]
      exact .refl _ _
    | true =>
      have unchecked : lexeme.token.isChecked = false := by
        cases token : lexeme.token <;> simp_all [Token.isTrivia, Token.isChecked]
      rw [significant_cons_of_trivia trivia]
      exact ih.skip unchecked (significant_suffix _)

theorem vets_takes (takes : Takes lexeme input rest) :
    checks.Vets input rest ↔ checks.Admits lexeme rest := by
  have skipped : lexeme :: rest <:+ input := takes ▸ significant_suffix input
  have vets := vets_significant checks input
  rw [takes] at vets
  rw [vets_trans_iff skipped (List.suffix_cons _ _), vets_cons]
  exact and_iff_right vets

theorem Vets.of_alike (suffix : rest <:+ input) (alike : significant rest = significant input) :
    checks.Vets input rest := by
  have vets := vets_significant checks input
  rw [← alike] at vets
  exact ((vets_trans_iff suffix (significant_suffix rest)).mp vets).1

theorem Vets.of_tagRest {text : String} (tag : TagRest text input rest) :
    rest <:+ input ∧ checks.Vets input rest := by
  induction tag with
  | done ended => exact ⟨List.suffix_refl _, .refl _ _⟩
  | @hyphen token literal text input rest goesOn _ ih =>
    obtain ⟨suffix, vets⟩ := ih
    have unchecked : token.isChecked = false := by
      rcases goesOn with isWord | rfl
      · exact Token.isChecked_of_isWord isWord
      · rfl
    have piece : checks.Vets (⟨token, literal⟩ :: input) rest := vets.skip unchecked suffix
    have longer := suffix.trans (List.suffix_cons ⟨token, literal⟩ input)
    exact ⟨longer.trans (List.suffix_cons _ _), piece.skip rfl longer⟩
  | negative sign _ ih =>
    obtain ⟨suffix, vets⟩ := ih
    exact ⟨suffix.trans (List.suffix_cons _ _), vets.skip rfl suffix⟩

end Checks

/-! ## Readings with and without checks -/

variable {α β : Type}

section

variable {R : Type} [Signature R] {handler : Checks → Handler R (Session Catalogue)}

/-- With checks a program succeeds just where it does without them, if all that it reads passes. It
ends in the same state then. -/
structure Weighed (handler : Checks → Handler R (Session Catalogue)) (program : Program R α) :
    Prop where
  suffix : ∀ {checks : Checks} {session after : Session Catalogue} {value : α},
    program.run (handler checks) session = (.ok value, after) →
    after.stream.ahead <:+ session.stream.ahead
  weighs : ∀ {checks : Checks} {session after : Session Catalogue} {value : α},
    session.stream.NoEof →
    (program.run (handler checks) session = (.ok value, after) ↔
      program.run (handler .lenient) session = (.ok value, after) ∧
        checks.Vets session.stream.ahead after.stream.ahead)

theorem Weighed.onward {program : Program R α} {checks : Checks}
    {session after : Session Catalogue} {value : α}
    (weighed : Weighed handler program) (noEof : session.stream.NoEof) (middle : Session Catalogue)
    (suffix : middle.stream.ahead <:+ session.stream.ahead) :
    checks.Vets session.stream.ahead middle.stream.ahead ∧
        program.run (handler checks) middle = (.ok value, after) ↔
      program.run (handler .lenient) middle = (.ok value, after) ∧
        checks.Vets session.stream.ahead after.stream.ahead := by
  constructor
  · rintro ⟨before, run⟩
    obtain ⟨free, behind⟩ := (weighed.weighs (noEof.of_suffix suffix)).mp run
    exact ⟨free, (Checks.vets_trans_iff suffix (weighed.suffix run)).mpr ⟨before, behind⟩⟩
  · rintro ⟨free, vets⟩
    obtain ⟨before, behind⟩ := (Checks.vets_trans_iff suffix (weighed.suffix free)).mp vets
    exact ⟨before, (weighed.weighs (noEof.of_suffix suffix)).mpr ⟨free, behind⟩⟩

theorem Weighed.bind {program : Program R β} {next : β → Program R α}
    (head : Weighed handler program) (tail : ∀ value, Weighed handler (next value)) :
    Weighed handler (program >>= next) where
  suffix run := by
    obtain ⟨middle, between, first, second⟩ := Program.run_bind_ok.mp run
    exact ((tail middle).suffix second).trans (head.suffix first)
  weighs {checks session after value} noEof := by
    simp only [Program.run_bind_ok]
    constructor
    · rintro ⟨middle, between, first, second⟩
      obtain ⟨free, before⟩ := (head.weighs noEof).mp first
      obtain ⟨freely, vets⟩ :=
        ((tail middle).onward noEof _ (head.suffix first)).mp ⟨before, second⟩
      exact ⟨⟨middle, between, free, freely⟩, vets⟩
    · rintro ⟨⟨middle, between, first, second⟩, vets⟩
      obtain ⟨before, run⟩ := ((tail middle).onward noEof _ (head.suffix first)).mpr ⟨second, vets⟩
      exact ⟨middle, between, (head.weighs noEof).mpr ⟨first, before⟩, run⟩

/-- A program that makes no check and passes nothing but trivia. -/
theorem Weighed.of_still {program : Program R α}
    (same : ∀ checks session, program.run (handler checks) session =
      program.run (handler .lenient) session)
    (still : ∀ {session after : Session Catalogue} {value : α}, session.stream.NoEof →
      program.run (handler .lenient) session = (.ok value, after) →
      significant after.stream.ahead = significant session.stream.ahead)
    (suffix : ∀ {session after : Session Catalogue} {value : α},
      program.run (handler .lenient) session = (.ok value, after) →
      after.stream.ahead <:+ session.stream.ahead) : Weighed handler program where
  suffix run := suffix (same _ _ ▸ run)
  weighs noEof := by
    rw [same]
    exact ⟨fun run => ⟨run, .of_alike (suffix run) (still noEof run)⟩, And.left⟩

end

abbrev Judged (reading : Reading α) : Prop := Weighed Session.reader reading

namespace Judged

open Reading

theorem done (value : α) : Judged (pure value : Reading α) :=
  .of_still (fun _ _ => rfl)
    (fun _ read => by rw [(Reads.pure_iff.mp read).2])
    (fun read => (Forward.done value).suffix read)

theorem failed (error : SyntaxError) : Judged (.fail error : Reading α) :=
  .of_still (fun _ _ => rfl) (fun _ read => (Reads.fail_iff.mp read).elim)
    (fun read => (Forward.failed error).suffix read)

theorem peek : Judged peek :=
  .of_still (fun _ _ => rfl) (fun noEof read => (Reads.peek_at read ⟨rfl, noEof⟩).2.alike)
    (fun read => Forward.peek.suffix read)

theorem here : Judged here :=
  .of_still (fun _ _ => rfl) (fun _ read => by rw [(Reads.here_iff.mp read).2])
    (fun read => Forward.here.suffix read)

theorem report (event : Event) : Judged (report event) :=
  .of_still (fun _ _ => rfl) (fun _ read => by rw [Reads.report_iff.mp read])
    (fun read => (Forward.report event).suffix read)

theorem find (kind : EntityKind) (iri : Iri) (unknown : SyntaxError) :
    Judged (find kind iri unknown) := by
  refine .of_still (fun _ _ => ?_) (fun _ read => ?_)
    (fun read => (Forward.find kind iri unknown).suffix read)
  · simp only [Reading.find, Program.run, Session.reader, Session.answer]
  · obtain ⟨store, -, rfl⟩ := Reads.find_iff.mp read
    rfl

theorem within {reading : Reading α} (context : Context) (judged : Judged reading) :
    Judged (reading.within context) where
  suffix read := judged.suffix (Reads.within_iff.mp read)
  weighs noEof := Reads.within_iff.trans
    ((judged.weighs noEof).trans (and_congr_left' Reads.within_iff.symm))

theorem bind {reading : Reading β} {next : β → Reading α} (head : Judged reading)
    (tail : ∀ value, Judged (next value)) : Judged (reading >>= next) := Weighed.bind head tail

theorem map {reading : Reading β} (make : β → α) (judged : Judged reading) :
    Judged (make <$> reading) := judged.bind fun value => done (make value)

theorem limitReached : Judged (limitReached : Reading α) := here.bind fun _ => failed _

end Judged

/-- What is done with a token that was read: an identifier in brackets is checked before anything
else, and any other token that could be checked is put back or refused. -/
inductive Handled (scanned : Scanned) : Reading α → Prop where
  | plain {reading : Reading α} : scanned.token.isChecked = false → Judged reading →
      Handled scanned reading
  | refused (error : SyntaxError) : Handled scanned (.fail error)
  | back {reading : Reading α} : Judged reading →
      Handled scanned (Reading.unscan >>= fun _ => reading)
  | bracketed {next : Iri → Reading α} : scanned.token = .iri → (∀ iri, Judged (next iri)) →
      Handled scanned (Grammar.bracketedIri scanned >>= next)

section

variable {checks : Checks} {session after : Session Catalogue} {value : α}

theorem Checks.vets_token (checks : Checks) (stream : Stream) :
    checks.Vets stream.ahead stream.token.2.ahead ↔
      checks.Admits stream.token.1.lexeme stream.token.2.ahead := by
  rw [Stream.token_ahead, Stream.token_lexeme, firstLexeme]
  cases ahead : significant stream.ahead with
  | nil =>
    have vets := vets_significant checks stream.ahead
    rw [ahead] at vets
    exact iff_of_true vets (.of_unchecked rfl)
  | cons lexeme rest => exact vets_takes ahead

theorem Checks.admits_iri {lexeme : Lexeme} {rest : List Lexeme} {iri : Iri}
    (same : lexeme.token = .iri) (written : lexeme.literal = iri.render) :
    checks.Admits lexeme rest ↔ checks.iri iri.text = none := by
  constructor
  · intro admits
    obtain ⟨inside, found, passed⟩ := admits.iri same
    rw [written, Iri.unbracket?_render] at found
    rwa [Option.some.inj found]
  · intro passed
    exact ⟨fun _ => ⟨iri.text, by rw [written, Iri.unbracket?_render], passed⟩,
      fun other => by simp [same] at other⟩

theorem Reads.bracketed_bind_iff {scanned : Scanned} {next : Iri → Reading α} :
    Reads checks (Grammar.bracketedIri scanned >>= next) session value after ↔
      ∃ iri, scanned.literal = iri.render ∧ checks.iri iri.text = none ∧
        Reads checks (next iri) session value after := by
  rw [Reads.bind_iff]
  constructor
  · rintro ⟨iri, between, bracket, read⟩
    obtain ⟨written, passed, rfl⟩ := Recognition.bracketedIri_iff.mp bracket
    exact ⟨iri, written, passed, read⟩
  · rintro ⟨iri, written, passed, read⟩
    exact ⟨iri, session, Recognition.bracketedIri_iff.mpr ⟨written, passed, rfl⟩, read⟩

theorem Judged.onward {reading : Reading α} (judged : Judged reading) {stream : Stream}
    {store : Catalogue} (noEof : session.stream.NoEof)
    (suffix : stream.ahead <:+ session.stream.ahead) :
    checks.Vets session.stream.ahead stream.ahead ∧
        Reads checks reading ⟨stream, store⟩ value after ↔
      Reads .lenient reading ⟨stream, store⟩ value after ∧
        checks.Vets session.stream.ahead after.stream.ahead :=
  Weighed.onward judged noEof ⟨stream, store⟩ suffix

theorem Judged.tokenThen {next : Scanned → Reading α}
    (handled : ∀ scanned, Handled scanned (next scanned)) : Judged (Reading.token >>= next) where
  suffix {checks session after value} read := by
    rw [← Reads, Reads.token_bind_iff] at read
    have before := session.stream.token_suffix
    have given := handled session.stream.token.1
    generalize next session.stream.token.1 = reading at read given
    cases given with
    | plain unchecked judged => exact (judged.suffix read).trans before
    | refused error => exact (Reads.fail_iff.mp read).elim
    | back judged =>
      exact (judged.suffix (Reads.unscan_bind_iff.mp read)).trans session.stream.token_unscan_suffix
    | bracketed same judged =>
      obtain ⟨iri, -, -, read⟩ := Reads.bracketed_bind_iff.mp read
      exact ((judged iri).suffix read).trans before
  weighs {checks session after value} noEof := by
    rw [← Reads, ← Reads, Reads.token_bind_iff, Reads.token_bind_iff]
    have before := session.stream.token_suffix
    have given := handled session.stream.token.1
    have first := checks.vets_token session.stream
    generalize next session.stream.token.1 = reading at given ⊢
    cases given with
    | plain unchecked judged =>
      exact (and_iff_right (first.mpr (.of_unchecked unchecked))).symm.trans
        (judged.onward noEof before)
    | refused error => simp
    | back judged =>
      have again : checks.Vets session.stream.ahead session.stream.token.2.unscan.ahead := by
        rw [Stream.token_unscan_ahead noEof]
        exact checks.vets_significant _
      rw [Reads.unscan_bind_iff, Reads.unscan_bind_iff]
      exact (and_iff_right again).symm.trans
        (judged.onward noEof session.stream.token_unscan_suffix)
    | bracketed same judged =>
      -- The check of the identifier is what the lexeme adds to those of what follows it.
      rw [Reads.bracketed_bind_iff, Reads.bracketed_bind_iff, ← exists_and_right]
      refine exists_congr fun iri => ?_
      rw [and_assoc, and_assoc]
      refine and_congr_right fun written => ?_
      rw [← first.trans (Checks.admits_iri same written)]
      exact ((judged iri).onward noEof before).trans (and_iff_right rfl).symm

/-- What is done after a look at the next token: an identifier in brackets is read next and checked
as it was looked at. -/
inductive Looked (scanned : Scanned) : Reading α → Prop where
  | judged {reading : Reading α} : Judged reading → Looked scanned reading
  | bracketed {next : Iri → Reading α} : scanned.token = .iri → (∀ iri, Judged (next iri)) →
      Looked scanned (Reading.token >>= fun _ => Grammar.bracketedIri scanned >>= next)

theorem Looked.exists_judged {stream : Stream} {store : Catalogue} {reading : Reading α}
    (looked : Looked stream.token.1 reading) : ∃ same, Judged same ∧
      ∀ checks, Reads checks reading ⟨stream.peek.2, store⟩ value after ↔
        Reads checks same ⟨stream.peek.2, store⟩ value after := by
  cases looked with
  | judged judged => exact ⟨reading, judged, fun _ => Iff.rfl⟩
  | @bracketed next kind judged =>
    have again : stream.peek.2.token.1.lexeme = stream.token.1.lexeme :=
      Stream.peek_token_lexeme (by simp [kind])
    -- Only where another token is read do the two differ, and the one that was looked at is read.
    refine ⟨Reading.token >>= fun scanned => if scanned.token = .iri
      then Grammar.bracketedIri scanned >>= next else Reading.failOn scanned (.missing .name),
      .tokenThen fun scanned => ?_, fun checks => ?_⟩
    · split
      · next same => exact .bracketed same judged
      · exact .refused _
    · rw [Reads.token_bind_iff, Reads.token_bind_iff,
        if_pos (by rw [Scanned.token, again]; exact kind),
        Reads.bracketed_bind_iff, Reads.bracketed_bind_iff]
      simp only [Scanned.literal, again]

theorem Judged.peekThen {next : Scanned → Reading α}
    (looked : ∀ scanned, Looked scanned (next scanned)) : Judged (Reading.peek >>= next) where
  suffix {checks session after value} read := by
    rw [← Reads, Reads.peek_bind_iff] at read
    obtain ⟨same, judged, iff⟩ := (looked session.stream.token.1).exists_judged
    exact (judged.suffix ((iff _).mp read)).trans session.stream.token_unscan_suffix
  weighs {checks session after value} noEof := by
    obtain ⟨same, judged, iff⟩ := (looked session.stream.token.1).exists_judged
    have vets : checks.Vets session.stream.ahead session.stream.peek.2.ahead := by
      rw [Stream.peek_ahead noEof]
      exact checks.vets_significant _
    rw [← Reads, ← Reads, Reads.peek_bind_iff, Reads.peek_bind_iff, iff, iff]
    exact (and_iff_right vets).symm.trans
      (judged.onward noEof session.stream.token_unscan_suffix)

end

end OwlFunctional
