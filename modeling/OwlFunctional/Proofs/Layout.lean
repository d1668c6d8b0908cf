import OwlFunctional.Proofs.Faults
import OwlFunctional.Proofs.Gaps
import OwlFunctional.Proofs.Termination

/-! Layout: how little white space, line ends and comments matter.

A token is looked for behind all trivia, so the trivia before it has no say in what is read. Only
the pieces of a language tag have to follow each other directly. Two texts with the same tokens, and
with the same gaps where a piece of a tag could stand, are read alike, and only positions differ.
-/

set_option autoImplicit false

namespace OwlFunctional

open Lexeme
open Spelling (ContinuesTag)

/-! ## Inputs that differ in their layout -/

/-- The inputs have the same tokens, and the same trivia before a token that could go on with a
language tag, and after a hyphen. -/
inductive LaidAlike : List Lexeme → List Lexeme → Prop where
  | ends {first second : List Lexeme} : significant first = [] → significant second = [] →
      LaidAlike first second
  | next {lexeme : Lexeme} {first second rest others : List Lexeme} : Takes lexeme first rest →
      Takes lexeme second others → (ContinuesTag lexeme → leading first = leading second) →
      (lexeme = hyphen → leading rest = leading others) → LaidAlike rest others →
      LaidAlike first second

namespace LaidAlike

variable {first second : List Lexeme}

theorem refl (input : List Lexeme) : LaidAlike input input := by
  induction length : input.length using Nat.strongRecOn generalizing input with
  | ind size ih =>
    cases ahead : OwlFunctional.significant input with
    | nil => exact .ends ahead ahead
    | cons lexeme rest =>
      have shorter : rest.length < size := by
        have whole := (significant_suffix input).length_le
        rw [ahead, List.length_cons] at whole
        omega
      exact .next ahead ahead (fun _ => rfl) (fun _ => rfl) (ih _ shorter rest rfl)

theorem symm (alike : LaidAlike first second) : LaidAlike second first := by
  induction alike with
  | ends left right => exact .ends right left
  | next taken also before after _ ih =>
    exact .next also taken (fun goesOn => (before goesOn).symm) (fun joins => (after joins).symm) ih

theorem firstLexeme (alike : LaidAlike first second) : firstLexeme first = firstLexeme second := by
  cases alike with
  | ends left right => rw [OwlFunctional.firstLexeme, OwlFunctional.firstLexeme, left, right]
  | next taken also => rw [taken.first, also.first]

theorem tail (alike : LaidAlike first second) :
    LaidAlike (significant first).tail (significant second).tail := by
  cases alike with
  | ends left right =>
    rw [left, right]
    exact .ends rfl rfl
  | next taken also before after rest =>
    rw [taken, also]
    exact rest

theorem significant (alike : LaidAlike first second) :
    LaidAlike (significant first) (significant second) := by
  cases alike with
  | ends left right =>
    rw [left, right]
    exact .ends rfl rfl
  | next taken also before after rest =>
    refine .next ?_ ?_ ?_ after rest
    · rwa [Takes, significant_significant]
    · rwa [Takes, significant_significant]
    · intro _
      rw [leading_significant, leading_significant]

theorem raw (alike : LaidAlike first second) (same : leading first = leading second) :
    first.head? = second.head? ∧ LaidAlike first.tail second.tail := by
  cases found : leading first with
  | nil =>
    have heads := alike.firstLexeme
    have tails := alike.tail
    rw [eq_significant_of_leading found, eq_significant_of_leading (same ▸ found)] at tails
    refine ⟨?_, tails⟩
    cases alike with
    | ends left right =>
      rw [eq_significant_of_leading found] at left
      rw [eq_significant_of_leading (same ▸ found)] at right
      rw [left, right]
    | next taken also =>
      rw [Takes, eq_significant_of_leading found] at taken
      rw [Takes, eq_significant_of_leading (same ▸ found)] at also
      rw [taken, also]
      rfl
  | cons lexeme gap =>
    obtain ⟨trivia, others, rfl, left⟩ := cons_of_leading found
    obtain ⟨-, more, rfl, right⟩ := cons_of_leading (same ▸ found)
    refine ⟨rfl, ?_⟩
    cases alike with
    | ends first second =>
      rw [significant_cons_of_trivia trivia] at first second
      exact .ends first second
    | next taken also before after rest =>
      rw [Takes, significant_cons_of_trivia trivia] at taken also
      exact .next taken also (fun _ => left.trans right.symm) after rest

theorem goesOn (alike : LaidAlike first second) (goesOn : ContinuesTag (first.head?.getD .eof)) :
    leading first = leading second ∧
      (first.head?.getD .eof = hyphen → leading first.tail = leading second.tail) := by
  cases first with
  | nil => simp [ContinuesTag, Lexeme.eof] at goesOn
  | cons lexeme rest =>
    have telling : lexeme.token.isTrivia = false := not_trivia_of_continuesTag goesOn
    cases alike with
    | ends left right => simp [significant_cons telling] at left
    | next taken also before after =>
      rw [Takes, significant_cons telling] at taken
      obtain ⟨rfl, rfl⟩ := List.cons.inj taken
      have gap := before goesOn
      refine ⟨gap, fun joins => ?_⟩
      rw [leading_cons telling] at gap
      rw [Takes, eq_significant_of_leading gap.symm] at also
      rw [also]
      exact after joins

theorem of_texts {first second : List Char}
    (tokens : tokensIn (lexemesOf first) = tokensIn (lexemesOf second))
    (gaps : SameGaps (lexemesOf first) (lexemesOf second)) :
    LaidAlike (lexemesOf first) (lexemesOf second) := by
  generalize read : tokensIn (lexemesOf second) = list at tokens
  induction list generalizing first second with
  | nil => exact .ends (significant_of_tokensIn tokens) (significant_of_tokensIn read)
  | cons lexeme list ih =>
    obtain ⟨rest, taken, left⟩ := takes_of_tokensIn tokens
    obtain ⟨others, also, right⟩ := takes_of_tokensIn read
    obtain ⟨one, rfl⟩ := exists_text_of_suffix
      ((List.suffix_cons lexeme rest).trans (taken ▸ significant_suffix (lexemesOf first)))
    obtain ⟨two, rfl⟩ := exists_text_of_suffix
      ((List.suffix_cons lexeme others).trans (also ▸ significant_suffix (lexemesOf second)))
    rw [SameGaps, tokens] at gaps
    -- The first gap is the one before this token. Behind it, all gaps are counted anew.
    have here := gaps 0 (Nat.succ_pos _) lexeme rfl
    rw [gapAt_zero, gapAt_zero, taken.gapAt, also.gapAt, gapAt_zero, gapAt_zero] at here
    refine .next taken also (fun goesOn => leading_eq_of_textOf_eq (here.1 goesOn))
      (fun joins => leading_eq_of_textOf_eq (here.2 joins)) (ih ?_ right left)
    intro index inside other member
    rw [left] at inside member
    have later := gaps (index + 1) (Nat.succ_lt_succ inside) other member
    rwa [taken.gapAt, also.gapAt, taken.gapAt, also.gapAt] at later

end LaidAlike

/-! ## Sessions -/

variable {σ : Type}

/-- The sessions stand before inputs that are laid alike, also if the last lexeme is put back. -/
structure Session.LaidAlike (first second : Session σ) : Prop where
  ahead : OwlFunctional.LaidAlike first.stream.ahead second.stream.ahead
  back : OwlFunctional.LaidAlike first.stream.unscan.ahead second.stream.unscan.ahead
  left : first.stream.NoEof
  right : second.stream.NoEof
  store : first.store = second.store

namespace Session.LaidAlike

variable {first second : Session σ}

theorem token (alike : first.LaidAlike second) :
    (⟨first.stream.token.2, first.store⟩ : Session σ).LaidAlike
      ⟨second.stream.token.2, second.store⟩ where
  ahead := by simpa using alike.ahead.tail
  back := by simpa [Stream.token_unscan_ahead alike.left, Stream.token_unscan_ahead alike.right]
    using alike.ahead.significant
  left := alike.left.token
  right := alike.right.token
  store := alike.store

theorem found (alike : first.LaidAlike second) :
    first.stream.token.1.Alike anywhere second.stream.token.1 :=
  ⟨by rw [Stream.token_lexeme, Stream.token_lexeme, alike.ahead.firstLexeme], trivial⟩

theorem unscan (alike : first.LaidAlike second) :
    (⟨first.stream.unscan, first.store⟩ : Session σ).LaidAlike
      ⟨second.stream.unscan, second.store⟩ where
  ahead := alike.back
  back := by simpa [Stream.unscan_unscan] using alike.back
  left := alike.left.unscan
  right := alike.right.unscan
  store := alike.store

theorem scan (alike : first.LaidAlike second)
    (same : leading first.stream.ahead = leading second.stream.ahead) :
    first.stream.next = second.stream.next ∧
      (⟨first.stream.scan.2, first.store⟩ : Session σ).LaidAlike
        ⟨second.stream.scan.2, second.store⟩ := by
  obtain ⟨heads, tails⟩ := alike.ahead.raw same
  refine ⟨by rw [Stream.next, Stream.next, heads], ?_, ?_, alike.left.scan, alike.right.scan,
    alike.store⟩
  · simpa using tails
  · simpa [Stream.scan_unscan_ahead alike.left, Stream.scan_unscan_ahead alike.right]
      using alike.ahead

/-- The search for a piece of a language tag is the one step that does not pass over trivia. -/
theorem subtag (alike : first.LaidAlike second) :
    first.stream.subtag.1.Alike anywhere second.stream.subtag.1 ∧
      (⟨first.stream.subtag.2, first.store⟩ : Session σ).LaidAlike
        ⟨second.stream.subtag.2, second.store⟩ := by
  by_cases goesOn : ContinuesTag first.stream.next
  · obtain ⟨gap, after⟩ := alike.ahead.goesOn goesOn
    obtain ⟨next, stepped⟩ := alike.scan gap
    by_cases joins : first.stream.next = hyphen
    · -- After a hyphen the search goes one lexeme further, so the gap behind it matters, too.
      obtain ⟨again, twice⟩ := stepped.scan (by simpa using after joins)
      rw [Stream.subtag_hyphen joins, Stream.subtag_hyphen (next ▸ joins)]
      refine ⟨?_, twice⟩
      simp only at again
      rw [again]
      split
      · exact .piece _
      · exact .broken ⟨again, trivial⟩
    · rw [Stream.subtag_negative goesOn joins, next,
        Stream.subtag_negative (next ▸ goesOn) (next ▸ joins)]
      exact ⟨.piece _, stepped⟩
  · -- What would go on in the second input stands there without a gap, and so in the first one.
    have also : ¬ ContinuesTag second.stream.next := by
      intro others
      obtain ⟨gap, -⟩ := alike.ahead.symm.goesOn others
      exact goesOn ((alike.scan gap.symm).1 ▸ others)
    rw [Stream.subtag_absent goesOn, Stream.subtag_absent also]
    have left := Stream.scan_unscan_ahead alike.left
    have right := Stream.scan_unscan_ahead alike.right
    refine ⟨.absent trivial, ?_, ?_, alike.left.scan.unscan, alike.right.scan.unscan, alike.store⟩
    · simpa [left, right] using alike.ahead
    · simpa [Stream.unscan_unscan, left, right] using alike.ahead

variable [Store σ] {checks : Checks}

theorem answer (query : Query) (alike : first.LaidAlike second) :
    Agrees (query.Alike anywhere) Eq LaidAlike (Session.answer checks query first)
      (Session.answer checks query second) := by
  rcases first with ⟨stream, store⟩
  rcases second with ⟨other, same⟩
  obtain rfl : store = same := alike.store
  cases query with
  | token => exact .ok alike.found alike.token
  | peek => exact .ok alike.found alike.token.unscan
  | unscan => exact .ok rfl alike.unscan
  | here => exact .ok trivial alike
  | subtag => exact .ok alike.subtag.1 alike.subtag.2
  | find kind iri =>
    simp only [Session.answer]
    rcases Store.find kind iri store with ⟨_ | entity, after⟩
    · exact .error rfl ⟨alike.ahead, alike.back, alike.left, alike.right, rfl⟩
    · exact .ok rfl ⟨alike.ahead, alike.back, alike.left, alike.right, rfl⟩
  | checkIri text =>
    simp only [Session.answer]
    cases checks.iri text with
    | none => exact .ok rfl alike
    | some error => exact .error rfl alike
  | checkTag tag =>
    simp only [Session.answer]
    cases checks.tag tag with
    | none => exact .ok rfl alike
    | some error => exact .error rfl alike
  | report event => exact .ok rfl alike

theorem command (command : Command) (alike : first.LaidAlike second) :
    Agrees (command.Alike anywhere) Eq LaidAlike ((Session.writer checks).answer command first)
      ((Session.writer checks).answer command second) := by
  cases command with
  | query query => exact alike.answer query
  | declare declaration annotations =>
    simp only [Session.writer, alike.store]
    rcases Store.declare declaration annotations second.store with ⟨_ | _, after⟩
    · exact .error rfl ⟨alike.ahead, alike.back, alike.left, alike.right, rfl⟩
    · exact .ok rfl ⟨alike.ahead, alike.back, alike.left, alike.right, rfl⟩
  | add annotated =>
    simp only [Session.writer, alike.store]
    exact .ok rfl ⟨alike.ahead, alike.back, alike.left, alike.right, rfl⟩

end Session.LaidAlike

/-! ## Documents -/

namespace Document

variable [Store σ] {first second : Session σ}

omit [Store σ] in
theorem laidAlike_prepare (settings : Settings) (alike : first.LaidAlike second) :
    (prepare settings first).LaidAlike (prepare settings second) := by
  have unscan (session : Session σ) :
      (prepare settings session).stream.unscan.ahead = session.stream.unscan.ahead := by
    rw [prepare_eq]
    unfold Stream.unscan
    cases session.stream.lastStep <;> rfl
  have back := alike.back
  rw [← unscan first, ← unscan second] at back
  rw [prepare_eq, prepare_eq] at back ⊢
  exact ⟨alike.ahead, back, alike.left, alike.right, alike.store⟩

/-- The bounds of the two runs differ, so the second one is given those of the longer input. -/
theorem perform_laidAlike (settings : Settings) (alike : first.LaidAlike second) :
    (perform settings first).1 = (perform settings second).1 ∧
      Agrees Eq (SyntaxError.Alike anywhere) Session.LaidAlike (perform settings first).2
        (perform settings second).2 := by
  have enough : limit second ≤ max (limit first) (limit second) := Nat.le_max_right ..
  have start : limit (prepare settings first) ≤ max (limit first) (limit second) := by
    rw [limit, prepare_ahead]
    exact Nat.le_max_left ..
  rw [← performWithin_eq enough]
  generalize max (limit first) (limit second) = bound at start
  have prepared := laidAlike_prepare settings alike
  unfold perform performWithin
  dsimp only
  generalize prepare settings first = left at start prepared
  generalize prepare settings second = right at prepared
  -- Under one bound the two preambles are alike, and what they leave decides about the bodies.
  have heads : Agrees Eq (SyntaxError.Alike anywhere) Session.LaidAlike
      ((preamble settings left).run (Session.reader settings.checks) left)
      ((Grammar.preamble settings.prefixes [] bound).run (Session.reader settings.checks) right) :=
    (preamble_alike settings.prefixes [] start).run _ (fun query _ _ alike => alike.answer query)
      prepared fun _ _ => preamble_unmet
  rcases read : (preamble settings left).run (Session.reader settings.checks) left with
    ⟨error | ontology, middle⟩
  · rw [read] at heads
    generalize (Grammar.preamble settings.prefixes [] bound).run _ right = result at heads
    cases heads with
    | error same kept => exact ⟨rfl, .error same kept⟩
  · rw [read] at heads
    generalize (Grammar.preamble settings.prefixes [] bound).run _ right = result at heads
    have shorter : middle.stream.ahead.length ≤ left.stream.ahead.length :=
      ((preamble_forward _ _ _).suffix read).length_le
    cases heads with
    | @ok _ _ _ other same kept =>
      subst same
      -- The body is bounded by what is left of the first input, which is no more than that input.
      have wider : Scope.Within ⟨ontology.prefixes, limit middle⟩ ⟨ontology.prefixes, bound⟩ :=
        ⟨rfl, Nat.le_trans (Nat.succ_le_succ shorter) start⟩
      have bodies : Agrees Eq (SyntaxError.Alike anywhere) Session.LaidAlike
          ((statements ontology middle).run (Session.writer settings.checks) middle)
          ((Grammar.statements ⟨ontology.prefixes, bound⟩).run
            (Session.writer settings.checks) other) :=
        (statements_alike wider).run _ (fun command _ _ alike => alike.command command) kept
          fun _ _ => statements_unmet
      dsimp only
      generalize (statements ontology middle).run _ middle = ended at bodies
      generalize (Grammar.statements ⟨ontology.prefixes, bound⟩).run _ other = also at bodies
      cases bodies with
      | ok _ last => exact ⟨rfl, .ok rfl last⟩
      | error wrong last => exact ⟨rfl, .error wrong last⟩

omit [Store σ] in
theorem conclude_alike {header : Option Ontology}
    {left right : Except SyntaxError Ontology × Session σ}
    (ends : Agrees Eq (SyntaxError.Alike anywhere) Session.LaidAlike left right)
    (met : left.2.stream.met = none) (also : right.2.stream.met = none) :
    let one := conclude header left.1 left.2
    let two := conclude header right.1 right.2
    ((∃ ontology, one.result = .ok ontology ∧ two.result = .ok ontology) ∨
      ∃ error wrong, one.result = .error (.malformed error) ∧
        two.result = .error (.malformed wrong) ∧ wrong.message = error.message ∧
        wrong = { error with position := wrong.position }) ∧
    one.ontology = two.ontology ∧ one.session.store = two.session.store := by
  cases ends with
  | @ok ontology _ _ _ same kept =>
    subst same
    exact ⟨.inl ⟨ontology, conclude_result_ok met ontology, conclude_result_ok also ontology⟩, rfl,
      kept.store⟩
  | @error error wrong _ _ same kept =>
    refine ⟨.inr ⟨error, wrong, conclude_result_error met error, conclude_result_error also wrong,
      ?_, ?_⟩, rfl, kept.store⟩
    · rw [SyntaxError.message, SyntaxError.message, same.cause, same.contexts]
    · rw [same.cause, same.contexts]

theorem laidAlike_opened (settings : Settings) (source other : String) {first second : String}
    (tokens : tokensIn (lexemesOf first.toList) = tokensIn (lexemesOf second.toList))
    (gaps : SameGaps (lexemesOf first.toList) (lexemesOf second.toList)) :
    (opened settings source (.ofString first)).LaidAlike
      (opened settings other (.ofString second)) := by
  have ahead := LaidAlike.of_texts tokens gaps
  rw [← Input.chars_ofString first, ← Input.chars_ofString second] at ahead
  exact ⟨ahead, ahead, Stream.ofInput_noEof source _, Stream.ofInput_noEof other _, rfl⟩

/-- Texts with the same tokens are read alike, if the gaps are the same where a piece of a language
tag could follow. Both give the same ontology, or fail with the same message, and what was read till
then is the same. Only the position of the error can differ. -/
theorem read_depends_on_tokens (settings : Settings) (source other first second : String)
    (tokens : tokensIn (lexemesOf first.toList) = tokensIn (lexemesOf second.toList))
    (gaps : SameGaps (lexemesOf first.toList) (lexemesOf second.toList)) :
    let one := read settings source (.ofString first)
    let two := read settings other (.ofString second)
    ((∃ ontology, one.result = .ok ontology ∧ two.result = .ok ontology) ∨
      ∃ error wrong, one.result = .error (.malformed error) ∧
        two.result = .error (.malformed wrong) ∧ wrong.message = error.message ∧
        wrong = { error with position := wrong.position }) ∧
    one.ontology = two.ontology ∧ one.session.store = two.session.store := by
  intro one two
  have left : one = _ := readInto_eq_conclude ..
  have right : two = _ := readInto_eq_conclude ..
  obtain ⟨headers, ends⟩ :=
    perform_laidAlike settings (laidAlike_opened settings source other tokens gaps)
  rw [left, right, headers]
  exact conclude_alike ends (perform_ofInput_met settings source (Input.fault_ofString first) _)
    (perform_ofInput_met settings other (Input.fault_ofString second) _)

def plainText : String :=
  "Ontology(<o:o>Declaration(Annotation(<a:l>\"a\"@en-GB)Class(<a:A>))Class)"

def spreadText : String :=
  "Ontology ( <o:o> # note\n Declaration(Annotation(<a:l>\r\n\"a\"@en-GB )" ++
    "Class(<a:A>)) Class\t)"

theorem read_spread_like_plain :
    let settings : Settings := { policy := .implicit }
    let one := read settings "" (.ofString plainText)
    let two := read settings "spread" (.ofString spreadText)
    lexemesOf plainText.toList ≠ lexemesOf spreadText.toList ∧
    one.session.store.entries.get .owlClass = [⟨⟨"a:A"⟩, .explicit⟩] ∧
    ((∃ ontology, one.result = .ok ontology ∧ two.result = .ok ontology) ∨
      ∃ error wrong, one.result = .error (.malformed error) ∧
        two.result = .error (.malformed wrong) ∧ wrong.message = error.message ∧
        wrong = { error with position := wrong.position }) ∧
    one.ontology = two.ontology ∧ one.session.store = two.session.store := by
  intro settings one two
  have tokens : tokensIn (lexemesOf plainText.toList) = tokensIn (lexemesOf spreadText.toList) := by
    decide +kernel
  have gaps : SameGaps (lexemesOf plainText.toList) (lexemesOf spreadText.toList) := by
    decide +kernel
  have classes : one.session.store.entries.get .owlClass = [⟨⟨"a:A"⟩, .explicit⟩] := by
    decide +kernel
  exact ⟨by decide +kernel, classes,
    read_depends_on_tokens settings "" "spread" plainText spreadText tokens gaps⟩

end Document

end OwlFunctional
