import Mathlib.Data.List.TakeWhile
import OwlFunctional.Proofs.Balance
import OwlFunctional.Proofs.Parts

/-! Every construct reads on: what it leaves ahead is a rest of what was ahead, and a token lies
between the two.

Only the last lexeme can be put back, and every construct puts back only what it has read itself.
So it does not matter where the cursor came from, which stream it is, or what the store answers.
-/

set_option autoImplicit false

namespace OwlFunctional

/-- Between an input and a rest of it stands a token that is neither trivia nor the end. -/
def Passes (input rest : List Lexeme) : Prop :=
  ∃ taken, input = taken ++ rest ∧
    ∃ lexeme ∈ taken, lexeme.token.isTrivia = false ∧ lexeme.token ≠ .eof

namespace Passes

variable {input middle rest : List Lexeme}

theorem suffix (passes : Passes input rest) : rest <:+ input := by
  obtain ⟨taken, rfl, -⟩ := passes
  exact List.suffix_append taken rest

theorem shorter (passes : Passes input rest) : rest.length < input.length := by
  obtain ⟨taken, rfl, lexeme, member, -⟩ := passes
  have some_taken := List.length_pos_of_mem member
  rw [List.length_append]
  omega

/-- More may be read before the token. -/
theorem of_suffix (passes : Passes middle rest) (before : middle <:+ input) : Passes input rest := by
  obtain ⟨skipped, rfl⟩ := before
  obtain ⟨taken, rfl, lexeme, member, telling⟩ := passes
  exact ⟨skipped ++ taken, (List.append_assoc ..).symm, lexeme,
    List.mem_append_right skipped member, telling⟩

/-- More may be read after the token. -/
theorem on (passes : Passes input middle) (after : rest <:+ middle) : Passes input rest := by
  obtain ⟨more, rfl⟩ := after
  obtain ⟨taken, rfl, lexeme, member, telling⟩ := passes
  exact ⟨taken ++ more, (List.append_assoc ..).symm, lexeme, List.mem_append_left more member,
    telling⟩

/-- Nothing is passed where no token is left. -/
theorem not_of_exhausted (exhausted : significant input = []) : ¬ Passes input rest := by
  rintro ⟨taken, rfl, lexeme, member, telling, -⟩
  have trivia := List.dropWhile_eq_nil_iff.mp exhausted lexeme (List.mem_append_left rest member)
  simp [telling] at trivia

end Passes

/-! ## Streams -/

namespace Stream

theorem ahead_suffix_unscan (stream : Stream) : stream.ahead <:+ stream.unscan.ahead := by
  unfold unscan
  split
  · dsimp only
    split
    · exact List.suffix_refl _
    · exact List.suffix_cons _ _
  · exact List.suffix_refl _

theorem scan_suffix (stream : Stream) : stream.scan.2.ahead <:+ stream.ahead := by
  rw [scan_ahead]
  exact List.tail_suffix _

theorem scan_unscan_suffix (stream : Stream) : stream.scan.2.unscan.ahead <:+ stream.ahead := by
  unfold unscan
  rw [scan_lastStep]
  cases ahead : stream.ahead with
  | nil =>
    -- At the end nothing was taken off, and nothing is put back.
    simp [next, ahead, Lexeme.eof]
  | cons lexeme rest =>
    simp only [next, ahead, List.head?_cons, Option.getD_some, scan_ahead, List.tail_cons]
    split
    · exact List.suffix_cons _ _
    · exact List.suffix_refl _

theorem token_suffix (stream : Stream) : stream.token.2.ahead <:+ stream.ahead := by
  rw [token_ahead]
  exact (List.tail_suffix _).trans (significant_suffix _)

theorem skip_leadingTrivia_suffix (stream : Stream) :
    (stream.skip stream.leadingTrivia).ahead <:+ stream.ahead := by
  rw [skip_leadingTrivia_ahead]
  exact significant_suffix _

theorem token_unscan_suffix (stream : Stream) : stream.token.2.unscan.ahead <:+ stream.ahead :=
  (scan_unscan_suffix _).trans stream.skip_leadingTrivia_suffix

/-- A piece of a language tag takes one lexeme or two, and what is none is put back. -/
theorem subtag_unscan_suffix (stream : Stream) :
    stream.subtag.2.unscan.ahead <:+ stream.ahead := by
  have first := stream.scan_unscan_suffix
  have second := (scan_unscan_suffix stream.scan.2).trans stream.scan_suffix
  simp only [subtag]
  split
  · split
    · exact second
    · exact second
  · split
    · exact first
    · rwa [unscan_unscan]

theorem subtag_suffix (stream : Stream) : stream.subtag.2.ahead <:+ stream.ahead :=
  (ahead_suffix_unscan _).trans stream.subtag_unscan_suffix

theorem scan_passes {stream : Stream} (telling : stream.next.token.isTrivia = false)
    (visible : stream.next.token ≠ .eof) : Passes stream.ahead stream.scan.2.ahead := by
  cases ahead : stream.ahead with
  | nil => simp [next, ahead, Lexeme.eof] at visible
  | cons lexeme rest =>
    have first : stream.next = lexeme := by simp [next, ahead]
    rw [first] at telling visible
    rw [scan_ahead, ahead]
    exact ⟨[lexeme], rfl, lexeme, List.mem_singleton.mpr rfl, telling, visible⟩

theorem subtag_passes {stream : Stream} {text : String} (piece : stream.subtag.1 = .piece text) :
    Passes stream.ahead stream.subtag.2.ahead := by
  unfold subtag at piece ⊢
  dsimp only at piece ⊢
  by_cases hyphen : stream.scan.1.lexeme = ⟨.illegal, "-"⟩
  · rw [if_pos hyphen]
    rw [scan_lexeme] at hyphen
    have first : Passes stream.ahead stream.scan.2.ahead :=
      scan_passes (by simp [hyphen, Token.isTrivia]) (by simp [hyphen])
    -- Whatever follows the hyphen, the hyphen itself was passed.
    split
    · exact first.on (scan_suffix _)
    · exact first.on (scan_suffix _)
  · rw [if_neg hyphen] at piece ⊢
    split at piece
    · next number =>
      rw [if_pos number]
      have integer : stream.next.token = .integer := number.1
      exact scan_passes (by simp [integer, Token.isTrivia]) (by simp [integer])
    · simp at piece

theorem token_passes {stream : Stream} (visible : stream.token.1.token ≠ .eof) :
    Passes stream.ahead stream.token.2.ahead := by
  refine (scan_passes ?_ visible).of_suffix stream.skip_leadingTrivia_suffix
  cases ahead : significant stream.ahead with
  | nil => simp [next, skip_leadingTrivia_ahead, ahead, Lexeme.eof, Token.isTrivia]
  | cons lexeme rest =>
    simpa [next, skip_leadingTrivia_ahead, ahead] using not_trivia_of_significant ahead

end Stream

/-- Only a step back can leave more ahead than there was. -/
theorem Session.answer_suffix {σ : Type} [Store σ] {checks : Checks} {query : Query}
    (onward : query ≠ .unscan) (session : Session σ) :
    (answer checks query session).2.stream.ahead <:+ session.stream.ahead := by
  cases query with
  | token => exact session.stream.token_suffix
  | peek => exact session.stream.token_unscan_suffix
  | unscan => exact absurd rfl onward
  | subtag => exact session.stream.subtag_suffix
  | find kind iri =>
    simp only [answer]
    split <;> exact List.suffix_refl _
  | here => exact List.suffix_refl _
  | checkIri text => exact List.suffix_refl _
  | checkTag tag => exact List.suffix_refl _
  | report event => exact List.suffix_refl _

variable {α β : Type}

namespace Reads

variable {σ : Type} [Store σ] {checks : Checks} {session between after : Session σ}

/-- With the last lexeme put back, no reading leaves more ahead than there was. -/
theorem unscan_suffix {reading : Reading α} {value : α}
    (read : Reads checks reading session value after) :
    after.stream.unscan.ahead <:+ session.stream.unscan.ahead := by
  refine read.relates
    (fun first second => second.stream.unscan.ahead <:+ first.stream.unscan.ahead)
    (fun _ => List.suffix_refl _) (fun first second => second.trans first) ?_
  intro query state
  have behind := state.stream.ahead_suffix_unscan
  cases query with
  | token => exact state.stream.token_unscan_suffix.trans behind
  | peek =>
    change state.stream.token.2.unscan.unscan.ahead <:+ _
    rw [Stream.unscan_unscan]
    exact state.stream.token_unscan_suffix.trans behind
  | unscan =>
    -- A second step back goes no further than the first one.
    change state.stream.unscan.unscan.ahead <:+ _
    simp only [Stream.unscan_unscan, List.suffix_refl]
  | subtag => exact state.stream.subtag_unscan_suffix.trans behind
  | find kind iri =>
    simp only [Session.answer]
    split <;> exact List.suffix_refl _
  | here => exact List.suffix_refl _
  | checkIri text => exact List.suffix_refl _
  | checkTag tag => exact List.suffix_refl _
  | report event => exact List.suffix_refl _

theorem token_passes {scanned : Scanned} (read : Reads checks Reading.token session scanned after)
    (visible : scanned.token ≠ .eof) : Passes session.stream.ahead after.stream.ahead := by
  obtain ⟨rfl, rfl⟩ := token_iff.mp read
  exact Stream.token_passes visible

theorem expect_passes {token : Token} (read : Reads checks (Reading.expect token) session () after)
    (visible : token ≠ .eof) : Passes session.stream.ahead after.stream.ahead := by
  obtain ⟨scanned, scan, rfl⟩ := expect_iff.mp read
  exact scan.token_passes visible

theorem expect_unscan_suffix {token : Token}
    (read : Reads checks (Reading.expect token) session () after) :
    after.stream.unscan.ahead <:+ session.stream.ahead := by
  obtain ⟨scanned, scan, -⟩ := expect_iff.mp read
  obtain ⟨-, rfl⟩ := token_iff.mp scan
  exact session.stream.token_unscan_suffix

theorem expect_suffix {token : Token}
    (read : Reads checks (Reading.expect token) session () after) :
    after.stream.ahead <:+ session.stream.ahead :=
  (Stream.ahead_suffix_unscan _).trans read.expect_unscan_suffix

theorem parentheses_suffix {inside : Reading α} {value : α} {opened inner : Session σ}
    (paren : Reads checks (Reading.expect .openParen) session () opened)
    (core : Reads checks inside opened value inner)
    (close : Reads checks (Reading.expect .closeParen) inner () after) :
    after.stream.ahead <:+ session.stream.ahead :=
  close.expect_suffix.trans ((Stream.ahead_suffix_unscan _).trans
    (core.unscan_suffix.trans paren.expect_unscan_suffix))

/-- A token that is put back was ahead. -/
theorem putBack_suffix {scanned : Scanned}
    (read : Reads checks Reading.token session scanned between)
    (back : Reads checks Reading.unscan between () after) :
    after.stream.ahead <:+ session.stream.ahead := by
  obtain ⟨rfl, rfl⟩ := token_iff.mp read
  obtain rfl := unscan_iff.mp back
  exact session.stream.token_unscan_suffix

end Reads

/-! ## Readings that go on -/

/-- Whenever the reading succeeds, what it leaves ahead was ahead. -/
structure Forward (reading : Reading α) : Prop where
  suffix : ∀ {σ : Type} [Store σ] {checks : Checks} {session after : Session σ} {value : α},
    Reads checks reading session value after → after.stream.ahead <:+ session.stream.ahead

/-- Whenever the reading succeeds, it has read a token. -/
structure Advances (reading : Reading α) : Prop where
  passes : ∀ {σ : Type} [Store σ] {checks : Checks} {session after : Session σ} {value : α},
    Reads checks reading session value after → Passes session.stream.ahead after.stream.ahead

theorem Advances.forward {reading : Reading α} (advances : Advances reading) : Forward reading :=
  ⟨fun read => (advances.passes read).suffix⟩

namespace Forward

theorem done (value : α) : Forward (pure value : Reading α) := by
  constructor
  intro σ _ checks session after given read
  obtain ⟨-, rfl⟩ := Reads.pure_iff.mp read
  exact List.suffix_refl _

theorem failed (error : SyntaxError) : Forward (.fail error : Reading α) := by
  constructor
  intro σ _ checks session after given read
  simp at read

theorem bind {first : Reading β} {next : β → Reading α} (head : Forward first)
    (tail : ∀ value, Forward (next value)) : Forward (first >>= next) := by
  constructor
  intro σ _ checks session after value read
  obtain ⟨middle, between, begun, ended⟩ := Reads.bind_iff.mp read
  exact ((tail middle).suffix ended).trans (head.suffix begun)

theorem within {reading : Reading α} (context : Context) (forward : Forward reading) :
    Forward (reading.within context) := ⟨fun read => forward.suffix (Reads.within_iff.mp read)⟩

theorem map {reading : Reading β} (make : β → α) (forward : Forward reading) :
    Forward (make <$> reading) := forward.bind fun value => done (make value)

theorem asked (query : Query) (onward : query ≠ .unscan)
    (refused : Signature.Refusal query → SyntaxError) :
    Forward (.ask query refused .done : Reading (Signature.Reply query)) := by
  constructor
  intro σ _ checks session after value read
  have moved : (Session.answer checks query session).2.stream.ahead <:+ _ :=
    Session.answer_suffix onward session
  unfold Reads at read
  simp only [Program.run, Session.reader] at read
  split at read
  · next answered =>
    obtain ⟨-, rfl⟩ := Prod.mk.inj read
    rwa [answered] at moved
  · simp at read

theorem token : Forward Reading.token := asked .token (by simp) _

theorem peek : Forward Reading.peek := asked .peek (by simp) _

theorem here : Forward Reading.here := asked .here (by simp) _

theorem subtag : Forward Reading.subtag := asked .subtag (by simp) _

theorem report (event : Event) : Forward (Reading.report event) := asked (.report event) (by simp) _

theorem find (kind : EntityKind) (iri : Iri) (unknown : SyntaxError) :
    Forward (Reading.find kind iri unknown) := asked (.find kind iri) (by simp) _

theorem checkIri (text : String) (invalid : IriError → SyntaxError) :
    Forward (Reading.checkIri text invalid) := asked (.checkIri text) (by simp) _

theorem checkTag (tag : String) (invalid : TagError → SyntaxError) :
    Forward (Reading.checkTag tag invalid) := asked (.checkTag tag) (by simp) _

theorem limitReached : Forward (Reading.limitReached : Reading α) := here.bind fun _ => failed _

theorem expect (token : Token) : Forward (Reading.expect token) :=
  ⟨fun read => read.expect_suffix⟩

theorem expectAll (tokens : List Token) : Forward (Reading.expectAll tokens) := by
  induction tokens with
  | nil => exact done ()
  | cons token tokens ih => exact (expect token).bind fun _ => ih

/-- A token is read, and where it is put back it is so at once. -/
theorem tokenThen {next : Scanned → Reading α}
    (tail : ∀ scanned, Forward (next scanned) ∨
      ∃ left : Reading α, next scanned = (Reading.unscan >>= fun _ => left) ∧ Forward left) :
    Forward (Reading.token >>= next) := by
  constructor
  intro σ _ checks session after value read
  obtain ⟨scanned, between, scan, read⟩ := Reads.bind_iff.mp read
  rcases tail scanned with kept | ⟨left, same, given⟩
  · exact (kept.suffix read).trans (token.suffix scan)
  · rw [same] at read
    obtain ⟨_, back, unscan, read⟩ := Reads.bind_iff.mp read
    exact (given.suffix read).trans (scan.putBack_suffix unscan)

theorem accept (accepted : Token) : Forward (Reading.accept accepted) := by
  apply tokenThen
  intro next
  split
  · exact .inl (done true)
  · exact .inr ⟨_, rfl, done false⟩

end Forward

namespace Advances

theorem enclosed (keyword : Keyword) (inside : Reading α) :
    Advances (Grammar.enclosed keyword inside) := by
  constructor
  intro σ _ checks session after value read
  obtain ⟨named, opened, inner, word, paren, core, close⟩ := Reads.enclosed_iff.mp read
  exact (word.expect_passes (by simp)).on (paren.parentheses_suffix core close)

theorem bind {first : Reading β} {next : β → Reading α} (head : Advances first)
    (tail : ∀ value, Forward (next value)) : Advances (first >>= next) := by
  constructor
  intro σ _ checks session after value read
  obtain ⟨middle, between, begun, ended⟩ := Reads.bind_iff.mp read
  exact (head.passes begun).on ((tail middle).suffix ended)

theorem later {first : Reading β} {next : β → Reading α} (head : Forward first)
    (tail : ∀ value, Advances (next value)) : Advances (first >>= next) := by
  constructor
  intro σ _ checks session after value read
  obtain ⟨middle, between, begun, ended⟩ := Reads.bind_iff.mp read
  exact ((tail middle).passes ended).of_suffix (head.suffix begun)

theorem within {reading : Reading α} (context : Context) (advances : Advances reading) :
    Advances (reading.within context) :=
  ⟨fun read => advances.passes (Reads.within_iff.mp read)⟩

theorem failed (error : SyntaxError) : Advances (.fail error : Reading α) := by
  constructor
  intro σ _ checks session after given read
  simp at read

theorem limitReached : Advances (Reading.limitReached : Reading α) :=
  later .here fun _ => failed _

/-- A token that is not accepted at the end of the input is passed. -/
theorem token {next : Scanned → Reading α} (tail : ∀ scanned, Forward (next scanned))
    (visible : ∀ scanned, scanned.token = .eof → ∃ error, next scanned = .fail error) :
    Advances (Reading.token >>= next) := by
  constructor
  intro σ _ checks session after value read
  obtain ⟨scanned, between, scan, read⟩ := Reads.bind_iff.mp read
  by_cases ended : scanned.token = .eof
  · obtain ⟨error, same⟩ := visible scanned ended
    rw [same] at read
    simp at read
  · exact (scan.token_passes ended).on ((tail scanned).suffix read)

end Advances

open Grammar

/-! ## Leaves -/

theorem bracketedIri_forward (scanned : Scanned) : Forward (bracketedIri scanned) := by
  unfold bracketedIri
  split
  · exact .failed _
  · exact .bind (.checkIri _ _) fun _ => .done _

theorem resolve_forward (scope : Scope) (label name : String) (position : Position) :
    Forward (resolve scope label name position) := by
  unfold resolve
  split
  · exact .failed _
  · exact .bind (.report _) fun _ => .done _

theorem localName_forward (label : String) : Forward (localName label) := by
  apply Forward.bind .token
  intro name
  split
  · exact .done _
  · exact .failed _

theorem shortName_advances : Advances shortName := by
  apply Advances.token
  · intro first
    dsimp only
    split
    · exact .bind (.expect _) fun _ => localName_forward _
    · exact localName_forward _
    · exact .bind (.failed _) fun _ => localName_forward _
  · intro first ended
    simp only [ended]
    exact ⟨_, rfl⟩

theorem labelledName_advances (scope : Scope) (position : Position) :
    Advances (labelledName scope position) :=
  shortName_advances.bind fun _ => (resolve_forward ..).bind fun _ => .done _

theorem name_advances (scope : Scope) : Advances (name scope) := by
  constructor
  intro σ _ checks session after value read
  obtain ⟨next, peeked, look, read⟩ := Reads.bind_iff.mp read
  have short := labelledName_advances scope next.position
  split at read
  · next kind =>
    obtain ⟨scanned, between, scan, read⟩ := Reads.bind_iff.mp read
    -- The token that was looked at is read, and it is not the end.
    have visible : scanned.token ≠ .eof := by
      have same := Reads.token_of_peek look scan (by simp [kind])
      rw [Scanned.token, same, ← Scanned.token, kind]
      simp
    have rest : Forward (do pure (← bracketedIri next, next.position)) :=
      (bracketedIri_forward next).bind fun _ => .done _
    exact ((scan.token_passes visible).of_suffix (Forward.peek.suffix look)).on (rest.suffix read)
  · exact (short.passes read).of_suffix (Forward.peek.suffix look)
  · exact (short.passes read).of_suffix (Forward.peek.suffix look)
  · simp at read

theorem languageRest_forward (tag : String) (limit : Nat) : Forward (languageRest tag limit) := by
  induction limit generalizing tag with
  | zero => exact .limitReached
  | succ limit ih =>
    apply Forward.bind .subtag
    intro found
    split
    · exact ih _
    · exact .failed _
    · exact .bind (.checkTag _ _) fun _ => .done _

theorem language_forward (scope : Scope) : Forward (language scope) := by
  apply Forward.bind (.accept _)
  intro accepted
  split
  · apply Forward.bind .token
    intro first
    split
    · exact .map _ (languageRest_forward _ _)
    · exact .failed _
  · exact .done _

theorem datatypeSuffix_forward (scope : Scope) : Forward (datatypeSuffix scope) := by
  apply Forward.bind (.accept _)
  intro accepted
  split
  · exact (name_advances scope).forward.bind fun _ => .done _
  · exact .done _

theorem typed_forward (scope : Scope) (position : Position) (kind : LiteralKind) (value : String)
    (language : Option String) : Forward (typed scope position kind value language) := by
  apply Forward.bind ((datatypeSuffix_forward scope).within _)
  intro suffix
  split
  · exact .done _
  · split
    · split
      · exact .done _
      · exact .failed _
    · exact .done _

theorem literal_advances (scope : Scope) : Advances (literal scope) := by
  apply Advances.token
  · intro first
    split
    · exact .done _
    · exact .failed _
    · dsimp only
      split
      · exact .bind ((language_forward scope).within _) (typed_forward scope _ _ _)
      · exact .bind (.done _) (typed_forward scope _ _ _)
  · intro first ended
    simp only [ended]
    exact ⟨_, rfl⟩

theorem cardinality_forward : Forward cardinality := by
  apply Forward.bind .token
  intro next
  split
  · split
    · exact .done _
    · exact .failed _
  · exact .failed _

theorem declaredKind_forward : Forward declaredKind := by
  apply Forward.bind .token
  intro next
  split
  · exact .done _
  · exact .failed _

/-! ## Constructs -/

theorem Composed.forward {reading : Reading α} (composed : Composed reading) : Forward reading := by
  induction composed with
  | done value => exact .done value
  | failed error => exact .failed error
  | bind first next ihFirst ihNext => exact ihFirst.bind ihNext
  | within context inner ih => exact ih.within context
  | peek => exact .peek
  | here => exact .here
  | name scope => exact (name_advances scope).forward
  | shortName => exact shortName_advances.forward
  | literal scope => exact (literal_advances scope).forward
  | cardinality => exact cardinality_forward
  | declaredKind => exact declaredKind_forward
  | find unknown usable => exact .find _ _ unknown
  | enclosed keyword inner ih => exact (Advances.enclosed _ _).forward
  | parenthesised inner next ihInner ihNext =>
    constructor
    intro σ _ checks session after value read
    obtain ⟨_, opened, paren, read⟩ := Reads.bind_iff.mp read
    obtain ⟨middle, inside, core, read⟩ := Reads.bind_iff.mp read
    obtain ⟨_, closed, close, read⟩ := Reads.bind_iff.mp read
    exact ((ihNext middle).suffix read).trans (paren.parentheses_suffix core close)

/-- A name that is built in as one of two things, or else one of a declared entity. -/
theorem namedBy_advances {scope : Scope} {first second : Iri} {top bottom : α} {kind : EntityKind}
    (make : Entity kind → α) (term : OwlTerm) :
    Advances (do
      let (iri, position) ← name scope
      if iri = first then pure top
      else if iri = second then pure bottom
      else make <$> declared kind term iri position) := by
  apply (name_advances scope).bind
  intro named
  dsimp only
  split
  · exact .done _
  · split
    · exact .done _
    · exact .map make (Composed.declared ..).forward

theorem anonymous_advances : Advances anonymous := by
  apply shortName_advances.bind
  intro parts
  dsimp only
  split
  · exact .done _
  · exact .bind .here fun _ => .failed _

theorem individual_advances (scope : Scope) : Advances (individual scope) := by
  apply Advances.later Composed.startsAnonymous.forward
  intro blank
  split
  · exact anonymous_advances.bind fun _ => .done _
  · exact ((name_advances scope).within _).bind fun _ =>
      (Composed.declared ..).forward.bind fun _ => .done _

theorem objectPropertyWithin_advances (scope : Scope) (limit : Nat) :
    Advances (objectPropertyWithin scope limit) := by
  cases limit with
  | zero => exact .limitReached
  | succ limit =>
    apply Advances.later .peek
    intro next
    split
    · exact .enclosed _ _
    · exact namedBy_advances _ _

theorem datatype_advances (scope : Scope) : Advances (datatype scope) := by
  apply (name_advances scope).bind
  intro named
  dsimp only
  split
  · exact .done _
  · exact .bind (.find _ _ _) fun _ => .done _

theorem dataRangeWithin_advances (scope : Scope) (limit : Nat) :
    Advances (dataRangeWithin scope limit) := by
  cases limit with
  | zero => exact .limitReached
  | succ limit =>
    apply Advances.later .peek
    intro next
    split
    iterate 3 exact ((datatype_advances scope).within _).bind fun _ => .done _
    · exact (Advances.enclosed _ _).bind fun _ =>
        (Composed.checkCount ..).forward.bind fun _ => .done _
    · exact (Advances.enclosed _ _).bind fun _ => .map _ (Composed.checkCount ..).forward
    · exact (Advances.enclosed _ _).bind fun _ => .map _ (Composed.onlyOperand ..).forward
    · exact (Advances.enclosed _ _).bind fun _ => .map _ (Composed.checkCount ..).forward
    · exact .failed _

theorem classExpressionWithin_advances (scope : Scope) (limit : Nat) :
    Advances (classExpressionWithin scope limit) := by
  cases limit with
  | zero => exact .limitReached
  | succ limit =>
    apply Advances.later .peek
    intro next
    split
    iterate 3 exact namedBy_advances _ _
    · exact (Advances.enclosed _ _).bind fun _ => .map _ (Composed.checkCount ..).forward
    · exact (Advances.enclosed _ _).bind fun _ => .map _ (Composed.onlyOperand ..).forward
    · exact (Advances.enclosed _ _).bind fun _ => .map _ (Composed.checkCount ..).forward
    -- All other keywords stand before parentheses and nothing else.
    iterate 7 exact .enclosed _ _
    · exact .failed _

theorem annotationProperty_advances (scope : Scope) : Advances (annotationProperty scope) := by
  apply (name_advances scope).bind
  intro named
  dsimp only
  split
  · exact .done _
  · exact (Composed.declared ..).forward

theorem assertion_advances (scope : Scope) (first : Scanned) :
    Advances (assertion scope first) := by
  unfold assertion
  split
  · split
    · apply (Advances.enclosed _ _).bind
      intro parts
      dsimp only
      split
      · exact .done _
      · exact .failed _
    · exact .failed _
  · exact .failed _

theorem facetPair_advances (scope : Scope) : Advances (facetPair scope) :=
  .later (Composed.facet scope).forward fun _ => (literal_advances scope).bind fun _ => .done _

theorem prefixBinding_advances (labels : List String) : Advances (prefixBinding labels) := by
  apply (Advances.enclosed _ _).bind
  intro parts
  dsimp only
  split
  · exact .failed _
  · exact .bind (.report _) fun _ => .done _

theorem versioned_forward (prefixes : Prefixes) (iri : Iri) : Forward (versioned prefixes iri) := by
  have announced (version : Option Iri) : Forward (announced prefixes iri version) :=
    .bind (.report _) fun _ => .done _
  apply Forward.bind .peek
  intro next
  dsimp only
  split
  · exact .bind .token fun _ => .bind (.map _ (bracketedIri_forward next)) announced
  · exact .bind (.done _) announced

theorem header_forward (prefixes : Prefixes) : Forward (header prefixes) := by
  apply Forward.bind (.within _ (.expectAll _))
  intro _
  apply Forward.bind .token
  intro first
  dsimp only
  split
  · exact .bind (bracketedIri_forward first) (versioned_forward prefixes)
  · exact .bind (.failed _) (versioned_forward prefixes)

theorem preamble_forward (prefixes : Prefixes) (labels : List String) (limit : Nat) :
    Forward (preamble prefixes labels limit) := by
  induction limit generalizing prefixes labels with
  | zero => exact .limitReached
  | succ limit ih =>
    apply Forward.tokenThen
    intro next
    split
    · exact .inr ⟨_, rfl, .bind (.within _ (prefixBinding_advances labels).forward) fun _ => ih _ _⟩
    · exact .inr ⟨_, rfl, header_forward prefixes⟩
    · exact .inl (.failed _)
    · exact .inl (.failed _)

/-- The constructs of a document, each with any bound on what is nested in it. -/
inductive Construct : {α : Type} → Reading α → Prop where
  | name (scope : Scope) : Construct (name scope)
  | individual (scope : Scope) : Construct (individual scope)
  | literal (scope : Scope) : Construct (literal scope)
  | objectProperty (scope : Scope) (limit : Nat) : Construct (objectPropertyWithin scope limit)
  | dataProperty (scope : Scope) : Construct (dataProperty scope)
  | annotationProperty (scope : Scope) : Construct (annotationProperty scope)
  | facetPair (scope : Scope) : Construct (facetPair scope)
  | dataRange (scope : Scope) (limit : Nat) : Construct (dataRangeWithin scope limit)
  | classExpression (scope : Scope) (limit : Nat) : Construct (classExpressionWithin scope limit)
  | annotation (scope : Scope) : Construct (singleNote scope)
  | declaration (scope : Scope) : Construct (declaration scope)
  | assertion (scope : Scope) (first : Scanned) : Construct (assertion scope first)
  | prefixBinding (labels : List String) : Construct (prefixBinding labels)

theorem Construct.advances {reading : Reading α} (construct : Construct reading) :
    Advances reading := by
  cases construct with
  | name scope => exact name_advances scope
  | individual scope => exact individual_advances scope
  | literal scope => exact literal_advances scope
  | objectProperty scope limit => exact objectPropertyWithin_advances scope limit
  | dataProperty scope => exact namedBy_advances _ _
  | annotationProperty scope => exact annotationProperty_advances scope
  | facetPair scope => exact facetPair_advances scope
  | dataRange scope limit => exact dataRangeWithin_advances scope limit
  | classExpression scope limit => exact classExpressionWithin_advances scope limit
  | annotation scope => exact .enclosed _ _
  | declaration scope => exact .enclosed _ _
  | assertion scope first => exact assertion_advances scope first
  | prefixBinding labels => exact prefixBinding_advances labels

end OwlFunctional
