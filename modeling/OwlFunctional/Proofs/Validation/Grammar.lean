import OwlFunctional.Proofs.Faults
import OwlFunctional.Proofs.Validation

/-! Every construct is weighed, and so is a document. -/

set_option autoImplicit false

namespace OwlFunctional

open Spelling (Language)

variable {α : Type}

/-! ## Tokens and names -/

open Grammar

theorem expect_judged {token : Token} (unchecked : token.isChecked = false) :
    Judged (Reading.expect token) := by
  apply Judged.tokenThen
  intro scanned
  split
  · next same => exact .plain (same ▸ unchecked) (.done ())
  · exact .refused _

theorem expectAll_judged {tokens : List Token}
    (unchecked : ∀ token ∈ tokens, token.isChecked = false) :
    Judged (Reading.expectAll tokens) := by
  induction tokens with
  | nil => exact .done ()
  | cons token tokens ih =>
    obtain ⟨first, others⟩ := List.forall_mem_cons.mp unchecked
    exact (expect_judged first).bind fun _ => ih others

theorem accept_judged {token : Token} (unchecked : token.isChecked = false) :
    Judged (Reading.accept token) := by
  apply Judged.tokenThen
  intro scanned
  split
  · next same => exact .plain (same ▸ unchecked) (.done true)
  · exact .back (.done false)

theorem localName_judged (label : String) : Judged (localName label) := by
  apply Judged.tokenThen
  intro name
  split
  · next isWord => exact .plain (Token.isChecked_of_isWord isWord) (.done _)
  · exact .refused _

theorem shortName_judged : Judged shortName := by
  have colon : Judged (Reading.expect .colon) := expect_judged rfl
  apply Judged.tokenThen
  intro first
  dsimp only
  split
  · next kind =>
    exact .plain (kind ▸ rfl) (colon.bind fun _ => localName_judged _)
  · next kind => exact .plain (kind ▸ rfl) (localName_judged _)
  · exact .refused _

theorem labelledName_judged (scope : Scope) (position : Position) :
    Judged (labelledName scope position) := by
  refine shortName_judged.bind fun parts => .bind ?_ fun _ => .done _
  unfold resolve
  split
  · exact .failed _
  · exact .bind (.report _) fun _ => .done _

theorem name_judged (scope : Scope) : Judged (name scope) := by
  apply Judged.peekThen
  intro next
  have short := labelledName_judged scope next.position
  split
  · next kind => exact .bracketed kind fun _ => .done _
  · exact .judged short
  · exact .judged short
  · exact .judged (.failed _)

theorem cardinality_judged : Judged cardinality := by
  apply Judged.tokenThen
  intro next
  split
  · next kind =>
    split
    · exact .plain (kind ▸ rfl) (.done _)
    · exact .refused _
  · exact .refused _

theorem declaredKind_judged : Judged declaredKind := by
  apply Judged.tokenThen
  intro next
  split
  · next kind => exact .plain (kind ▸ rfl) (.done _)
  · exact .refused _

theorem enclosed_judged {keyword : Keyword} {inside : Reading α} (judged : Judged inside) :
    Judged (enclosed keyword inside) := by
  have opening : Judged (Reading.expectAll [.keyword keyword, .openParen]) :=
    expectAll_judged (by simp [Token.isChecked])
  have closing : Judged (Reading.expect .closeParen) := expect_judged rfl
  exact opening.bind fun _ => judged.bind fun value => closing.bind fun _ => .done value

/-! ## Language tags and literals -/

theorem Checks.vets_significant_iff {checks : Checks} {input rest : List Lexeme}
    (suffix : rest <:+ input) : checks.Vets input (significant rest) ↔ checks.Vets input rest := by
  rw [vets_trans_iff suffix (significant_suffix rest)]
  exact and_iff_left (checks.vets_significant rest)

/-- A language tag passes if the tag itself does: it has no other lexemes that are checked. -/
theorem Checks.vets_language (checks : Checks) {language : Option String} {input rest : List Lexeme}
    (spelled : Language language input rest) :
    rest <:+ input ∧ (checks.Vets input rest ↔ ∀ tag ∈ language, checks.tag tag = none) := by
  cases spelled with
  | absent => exact ⟨List.suffix_refl _, iff_of_true (.refl _ _) (by simp)⟩
  | @tag token literal text _ first second _ mark isWord takes more =>
    obtain ⟨sign, takesSign⟩ := mark
    obtain ⟨ended, vetsRest⟩ : rest <:+ second ∧ checks.Vets second rest := Vets.of_tagRest more
    have vetsWord : checks.Vets first second :=
      (vets_takes takes).mpr (.of_unchecked (Token.isChecked_of_isWord isWord))
    have vetsAll := (vets_trans_iff takes.suffix ended).mpr ⟨vetsWord, vetsRest⟩
    have whole : Language (some (literal ++ text)) (⟨.atSign, sign⟩ :: first) rest :=
      .tag ⟨sign, significant_cons rfl _⟩ isWord takes more
    have later := ended.trans takes.suffix
    refine ⟨later.trans takesSign.suffix, ?_⟩
    rw [vets_trans_iff takesSign.suffix later, vets_takes takesSign, and_iff_left vetsAll]
    constructor
    · rintro admits tag ⟨⟩
      exact admits.tag rfl whole
    · intro passed
      exact ⟨by simp, fun _ tag after other => whole.unique other ▸ passed _ rfl⟩

section

variable {checks : Checks} {session after : Session Catalogue}

/-- What is checked last is checked of a whole reading. -/
theorem Reads.bind_weighs {β : Type} {first : Reading β} {next : β → Reading α} {value : α}
    {passed : Prop}
    (head : ∀ middle between, Reads checks first session middle between ↔
      Reads .lenient first session middle between)
    (tail : ∀ middle between, Reads checks (next middle) between value after ↔
      Reads .lenient (next middle) between value after ∧ passed) :
    Reads checks (first >>= next) session value after ↔
      Reads .lenient (first >>= next) session value after ∧ passed := by
  rw [bind_iff, bind_iff, ← exists_and_right]
  refine exists_congr fun middle => ?_
  rw [← exists_and_right]
  refine exists_congr fun between => ?_
  rw [and_assoc]
  exact and_congr (head middle between) (tail middle between)

theorem checkTag_weighs {tag result : String} {invalid : TagError → SyntaxError} :
    Reads checks (do Reading.checkTag tag invalid; pure tag) session result after ↔
      Reads .lenient (do Reading.checkTag tag invalid; pure tag) session result after ∧
        checks.tag result = none := by
  simp only [Reads.bind_iff, Reads.pure_iff]
  constructor
  · rintro ⟨_, between, check, rfl, rfl⟩
    obtain ⟨passed, rfl⟩ := Reads.checkTag_iff.mp check
    exact ⟨⟨(), _, Reads.checkTag_iff.mpr ⟨rfl, rfl⟩, rfl, rfl⟩, passed⟩
  · rintro ⟨⟨_, between, check, rfl, rfl⟩, passed⟩
    obtain ⟨-, rfl⟩ := Reads.checkTag_iff.mp check
    exact ⟨(), _, Reads.checkTag_iff.mpr ⟨passed, rfl⟩, rfl, rfl⟩

theorem languageRest_weighs {tag result : String} {limit : Nat} :
    Reads checks (languageRest tag limit) session result after ↔
      Reads .lenient (languageRest tag limit) session result after ∧ checks.tag result = none := by
  induction limit generalizing session tag with
  | zero => simp [languageRest, Reading.limitReached, Reads.bind_iff]
  | succ limit ih =>
    refine Reads.bind_weighs (fun _ _ => Reads.subtag_iff.trans Reads.subtag_iff.symm)
      fun found between => ?_
    cases found with
    | piece text => exact ih
    | broken found => simp
    | absent position => exact checkTag_weighs

theorem accept_weighs {token : Token} {accepted : Bool} :
    Reads checks (Reading.accept token) session accepted after ↔
      Reads .lenient (Reading.accept token) session accepted after := by
  unfold Reading.accept
  rw [Reads.token_bind_iff, Reads.token_bind_iff]
  split <;> rfl

theorem language_weighs {scope : Scope} {language : Option String} :
    Reads checks (Grammar.language scope) session language after ↔
      Reads .lenient (Grammar.language scope) session language after ∧
        ∀ tag ∈ language, checks.tag tag = none := by
  refine Reads.bind_weighs (fun _ _ => accept_weighs) fun accepted opened => ?_
  split
  · refine Reads.bind_weighs (fun _ _ => Reads.token_iff.trans Reads.token_iff.symm)
      fun first begun => ?_
    split
    · simp only [Reads.map_iff]
      constructor
      · rintro ⟨tag, rest, rfl⟩
        obtain ⟨free, passed⟩ := languageRest_weighs.mp rest
        exact ⟨⟨tag, free, rfl⟩, by simpa using passed⟩
      · rintro ⟨⟨tag, rest, rfl⟩, passed⟩
        exact ⟨tag, languageRest_weighs.mpr ⟨rest, passed tag rfl⟩, rfl⟩
    · simp
  · simp only [Reads.pure_iff]
    exact (and_iff_left_of_imp fun same => by simp [← same.1]).symm

end

theorem language_judged (scope : Scope) : Judged (Grammar.language scope) where
  suffix read := (language_forward scope).suffix read
  weighs {checks session after language} noEof := by
    refine language_weighs.trans (and_congr_right fun read => ?_)
    obtain ⟨rest, spelled, there⟩ := Recognition.language_spelled read ⟨rfl, noEof⟩
    obtain ⟨suffix, passes⟩ := checks.vets_language spelled
    have behind := (language_forward scope).suffix read
    -- The stream may be past trivia that is not of the tag, so the rests agree only up to it.
    rw [← passes, ← Checks.vets_significant_iff suffix, ← there.alike,
      Checks.vets_significant_iff behind]

theorem datatypeSuffix_judged (scope : Scope) : Judged (datatypeSuffix scope) := by
  refine .bind (accept_judged rfl) fun accepted => ?_
  split
  · exact (name_judged scope).bind fun _ => .done _
  · exact .done _

theorem typed_judged (scope : Scope) (position : Position) (kind : LiteralKind) (value : String)
    (language : Option String) : Judged (typed scope position kind value language) := by
  refine .bind ((datatypeSuffix_judged scope).within _) fun suffix => ?_
  split
  · exact .done _
  · split
    · split
      · exact .done _
      · exact .failed _
    · exact .done _

theorem unchecked_of_writtenKind? {token : Token} {kind : LiteralKind}
    (written : writtenKind? token = some kind) : token.isChecked = false := by
  rw [Recognition.token_of_writtenKind? written]
  cases kind <;> rfl

theorem literal_judged (scope : Scope) : Judged (literal scope) := by
  apply Judged.tokenThen
  intro first
  split
  · next kind => exact .plain (kind ▸ rfl) (.done _)
  · exact .refused _
  · next written _ =>
    refine .plain (unchecked_of_writtenKind? written) ?_
    dsimp only
    split
    · exact .bind ((language_judged scope).within _) (typed_judged scope _ _ _)
    · exact .bind (.done _) (typed_judged scope _ _ _)

/-! ## Constructs -/

theorem Composed.judged {reading : Reading α} (composed : Composed reading) : Judged reading := by
  induction composed with
  | done value => exact .done value
  | failed error => exact .failed error
  | bind first next ihFirst ihNext => exact ihFirst.bind ihNext
  | within context inner ih => exact ih.within context
  | peek => exact .peek
  | here => exact .here
  | name scope => exact name_judged scope
  | shortName => exact shortName_judged
  | literal scope => exact literal_judged scope
  | cardinality => exact cardinality_judged
  | declaredKind => exact declaredKind_judged
  | find unknown usable => exact .find _ _ unknown
  | enclosed keyword inner ih => exact enclosed_judged ih
  | parenthesised inner next ihInner ihNext =>
    have opening : Judged (Reading.expect .openParen) := expect_judged rfl
    have closing : Judged (Reading.expect .closeParen) := expect_judged rfl
    exact opening.bind fun _ => ihInner.bind fun value => closing.bind fun _ => ihNext value

theorem statement?_judged (scope : Scope) : Judged (statement? scope) := by
  apply Judged.tokenThen
  intro next
  split
  · next closing => exact .plain (closing ▸ rfl) (.done _)
  · refine .back ?_
    split
    · exact .map _ (Composed.declaration scope).judged
    · exact .map _ (Composed.assertion scope next).judged

theorem boundSpace_judged (first : Scanned) (label : String) :
    Judged (boundSpace first label) := by
  refine .bind (expectAll_judged (by simp [Token.isChecked])) fun _ => .tokenThen fun next => ?_
  dsimp only
  split
  · next kind => exact .bracketed kind fun _ => .done _
  · exact .refused _

theorem prefixBinding_judged (labels : List String) : Judged (prefixBinding labels) := by
  refine .bind (enclosed_judged (.tokenThen fun first => ?_)) fun parts => ?_
  · dsimp only
    split
    · exact .back (boundSpace_judged first "")
    · next kind => exact .plain (kind ▸ rfl) (boundSpace_judged first first.literal)
    · exact .refused _
  · dsimp only
    split
    · exact .failed _
    · exact .bind (.report _) fun _ => .done _

theorem versioned_judged (prefixes : Prefixes) (iri : Iri) : Judged (versioned prefixes iri) := by
  have ended (version : Option Iri) : Judged (announced prefixes iri version) :=
    .bind (.report _) fun _ => .done _
  apply Judged.peekThen
  intro next
  dsimp only
  split
  · next kind =>
    -- What is announced has to stand right behind the identifier to be weighed with it.
    have parts : (some <$> bracketedIri next) >>= announced prefixes iri =
        bracketedIri next >>= fun version => announced prefixes iri (some version) :=
      Program.bind_assoc _ _ _
    have looked : Looked next (Reading.token >>= fun _ =>
        (some <$> bracketedIri next) >>= announced prefixes iri) := by
      rw [parts]
      exact .bracketed kind fun version => ended (some version)
    exact looked
  · exact .judged (.bind (.done _) ended)

theorem header_judged (prefixes : Prefixes) : Judged (header prefixes) := by
  refine .bind (.within _ (expectAll_judged (by simp [Token.isChecked]))) fun _ =>
    .tokenThen fun first => ?_
  dsimp only
  split
  · next kind => exact .bracketed kind (versioned_judged prefixes)
  · exact .refused _

theorem preamble_judged (prefixes : Prefixes) (labels : List String) (limit : Nat) :
    Judged (preamble prefixes labels limit) := by
  induction limit generalizing prefixes labels with
  | zero => exact .limitReached
  | succ limit ih =>
    apply Judged.tokenThen
    intro next
    split
    · exact .back (.bind (.within _ (prefixBinding_judged labels)) fun _ => ih _ _)
    · exact .back (header_judged prefixes)
    · exact .refused _
    · exact .refused _

theorem ending_judged : Judged ending := by
  apply Judged.tokenThen
  intro next
  split
  · next ended => exact .plain (ended ▸ rfl) (.done _)
  · exact .refused _

/-! ## Documents -/

theorem Weighed.ofReading {reading : Reading α} (judged : Judged reading) :
    Weighed Session.writer (Writing.ofReading reading) where
  suffix {checks session after value} run := by
    rw [Writing.run_ofReading] at run
    exact judged.suffix run
  weighs {checks session after value} noEof := by
    rw [Writing.run_ofReading, Writing.run_ofReading]
    exact judged.weighs noEof

/-- A store makes no check. -/
theorem write_weighed (statement : Statement) : Weighed Session.writer (write statement) :=
  .of_still (fun _ _ => by cases statement <;>
      simp only [write, Writing.declare, Writing.add, Program.run, Session.writer])
    (fun _ wrote => congrArg _ (congrArg _ (write_unmoved wrote)))
    (fun wrote => by simp only [write_unmoved wrote, List.suffix_refl])

theorem body_weighed (scope : Scope) (limit : Nat) : Weighed Session.writer (body scope limit) := by
  induction limit with
  | zero => exact .ofReading .limitReached
  | succ limit ih =>
    rw [body_succ]
    refine .bind (.ofReading (statement?_judged scope)) fun found => ?_
    cases found with
    | none => exact .ofReading (.done ())
    | some statement => exact .bind (write_weighed statement) fun _ => ih

theorem statements_weighed (scope : Scope) : Weighed Session.writer (statements scope) :=
  .bind (body_weighed scope scope.limit) fun _ => .ofReading ending_judged

/-- All of an input passes if its identifiers and its language tags do. -/
theorem Checks.vets_nil_iff {checks : Checks} {input : List Lexeme} : checks.Vets input [] ↔
    (∀ lexeme ∈ input, lexeme.token = .iri →
      ∃ inside, Iri.unbracket? lexeme.literal = some inside ∧ checks.iri inside = none) ∧
    ∀ written tag rest, written <:+ input → Language (some tag) written rest →
      checks.tag tag = none := by
  constructor
  · intro vets
    constructor
    · intro lexeme member
      obtain ⟨before, after, rfl⟩ := List.append_of_mem member
      exact (vets lexeme after (List.suffix_append ..) (Nat.zero_le _)).iri
    · intro written tag rest suffix spelled
      cases spelled with
      | tag mark isWord takes more =>
        obtain ⟨sign, takesSign⟩ := mark
        have ahead := significant_suffix written
        rw [takesSign] at ahead
        exact (vets _ _ (ahead.trans suffix) (Nat.zero_le _)).tag rfl
          (.tag ⟨sign, significant_cons rfl _⟩ isWord takes more)
  · rintro ⟨iris, tags⟩ lexeme after suffix -
    exact ⟨iris lexeme (suffix.subset (List.mem_cons_self ..)),
      fun _ tag rest spelled => tags _ tag rest suffix spelled⟩

namespace Document

/-- Reads a document with the given checks instead of those of the settings. -/
def readWith {σ : Type} [Store σ] (checks : Checks) (settings : Settings) (session : Session σ) :
    Outcome σ :=
  let session := prepare settings session
  match (preamble settings session).run (Session.reader checks) session with
  | (.error error, session) => conclude none (.error error) session
  | (.ok ontology, session) =>
    let (result, session) := (statements ontology session).run (Session.writer checks) session
    conclude (some ontology) (result.map fun _ => ontology) session

theorem readInto_eq_readWith {σ : Type} [Store σ] (settings : Settings) (session : Session σ) :
    readInto settings session = readWith settings.checks settings session := rfl

section

variable {checks : Checks} {settings : Settings} {ontology : Ontology}
  {session middle after : Session Catalogue}

/-- A document is read to its end in two runs, and no fault of the input is met. -/
structure Runs (checks : Checks) (settings : Settings) (session : Session Catalogue)
    (ontology : Ontology) (middle after : Session Catalogue) : Prop where
  read : Reads checks (preamble settings (prepare settings session)) (prepare settings session)
    ontology middle
  ran : (statements ontology middle).run (Session.writer checks) middle = (.ok (), after)
  unmet : after.stream.met = none

theorem Runs.outcome (runs : Runs checks settings session ontology middle after) :
    readWith checks settings session = conclude (some ontology) (.ok ontology) after := by
  unfold readWith
  dsimp only
  rw [runs.read]
  dsimp only
  rw [runs.ran]
  rfl

theorem readWith_ok_iff_runs : (readWith checks settings session).result = .ok ontology ↔
    ∃ middle after, Runs checks settings session ontology middle after := by
  constructor
  · intro ok
    unfold readWith at ok
    dsimp only at ok
    split at ok
    · simp [conclude_ok_iff] at ok
    · next header middle read =>
      obtain ⟨unmet, given⟩ := conclude_ok_iff.mp ok
      rcases ran : (statements header middle).run (Session.writer checks) middle with
        ⟨error | _, after⟩
      · simp [ran, Except.map] at given
      · rw [ran] at given unmet
        obtain rfl := Except.ok.inj given
        exact ⟨middle, after, read, ran, unmet⟩
  · rintro ⟨middle, after, runs⟩
    rw [runs.outcome]
    exact conclude_result_ok runs.unmet ontology

/-- Nothing is left where the statements of a document have ended. -/
theorem statements_ended (noEof : middle.stream.NoEof)
    (ran : (statements ontology middle).run (Session.writer checks) middle = (.ok (), after)) :
    after.stream.ahead = [] := by
  obtain ⟨_, closed, whole, finish⟩ := Program.run_bind_ok.mp ran
  change (Writing.ofReading ending).run _ _ = _ at finish
  rw [Writing.run_ofReading] at finish
  have noEofThen := noEof.of_suffix ((body_weighed _ _).suffix whole)
  have silent := Recognition.ending_spelled finish ⟨rfl, noEofThen⟩
  obtain ⟨next, between, scan, finish⟩ := Reads.bind_iff.mp finish
  split at finish
  · obtain ⟨-, rfl⟩ := Reads.token_iff.mp scan
    obtain ⟨-, rfl⟩ := Reads.pure_iff.mp finish
    simp [silent]
  · simp at finish

theorem runs_iff (noEof : session.stream.NoEof) :
    Runs checks settings session ontology middle after ↔
      Runs .lenient settings session ontology middle after ∧
        checks.Vets session.stream.ahead [] := by
  have begun := prepare_ahead settings session
  have startNoEof : (prepare settings session).stream.NoEof := fun lexeme member =>
    noEof lexeme (begun ▸ member)
  have first := preamble_judged settings.prefixes [] (limit (prepare settings session))
  have second := statements_weighed ⟨ontology.prefixes, limit middle⟩
  constructor
  · rintro ⟨read, ran, unmet⟩
    obtain ⟨free, before⟩ := (first.weighs startNoEof).mp read
    have suffix := first.suffix read
    obtain ⟨freely, vets⟩ := (second.onward startNoEof _ suffix).mp ⟨before, ran⟩
    rw [statements_ended (startNoEof.of_suffix suffix) ran, begun] at vets
    exact ⟨⟨free, freely, unmet⟩, vets⟩
  · rintro ⟨⟨read, ran, unmet⟩, vets⟩
    have suffix := first.suffix read
    rw [← statements_ended (startNoEof.of_suffix suffix) ran, ← begun] at vets
    obtain ⟨before, strictly⟩ := (second.onward startNoEof _ suffix).mpr ⟨ran, vets⟩
    exact ⟨(first.weighs startNoEof).mpr ⟨read, before⟩, strictly, unmet⟩

end

/-- A document is accepted with checks just where it is accepted without them and its identifiers in
brackets and its language tags pass. It gives the same ontology and the same store then. -/
theorem readWith_ok_iff (checks : Checks) (settings : Settings) (source : String) (input : Input)
    (store : Catalogue) :
    let session : Session Catalogue := ⟨.ofInput source input, store⟩
    let strict := readWith checks settings session
    let lenient := readInto { settings with strict := false } session
    (∀ ontology, strict.result = .ok ontology ↔ lenient.result = .ok ontology ∧
      (∀ lexeme ∈ Lexeme.lexemesOf input.chars, lexeme.token = .iri →
        ∃ inside, Iri.unbracket? lexeme.literal = some inside ∧ checks.iri inside = none) ∧
      ∀ written tag rest, written <:+ Lexeme.lexemesOf input.chars →
        Language (some tag) written rest → checks.tag tag = none) ∧
    (∀ ontology, strict.result = .ok ontology → strict = lenient) ∧
    readInto { settings with strict := true } session = readWith .strict settings session := by
  intro session strict lenient
  have noEof : session.stream.NoEof := Stream.ofInput_noEof source input
  have ahead : session.stream.ahead = Lexeme.lexemesOf input.chars := rfl
  have free : lenient = readWith .lenient settings session := rfl
  refine ⟨fun ontology => ?_, fun ontology ok => ?_, rfl⟩
  · rw [free, readWith_ok_iff_runs, readWith_ok_iff_runs, ← Checks.vets_nil_iff, ← ahead]
    constructor
    · rintro ⟨middle, after, runs⟩
      obtain ⟨freely, vets⟩ := (runs_iff noEof).mp runs
      exact ⟨⟨middle, after, freely⟩, vets⟩
    · rintro ⟨⟨middle, after, runs⟩, vets⟩
      exact ⟨middle, after, (runs_iff noEof).mpr ⟨runs, vets⟩⟩
  · obtain ⟨middle, after, runs⟩ := readWith_ok_iff_runs.mp ok
    rw [free]
    exact runs.outcome.trans ((runs_iff noEof).mp runs).1.outcome.symm

end Document

end OwlFunctional
