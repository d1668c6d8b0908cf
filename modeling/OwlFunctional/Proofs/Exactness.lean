import Mathlib.Algebra.Ring.Parity
import OwlFunctional.Proofs.Cutting
import OwlFunctional.Proofs.Printing.Expression
import OwlFunctional.Proofs.Stepping
import OwlFunctional.Proofs.Utf8

/-! The lexemes of a text are known by the text alone.

For each kind of lexeme it is said what stands in a text for it and what can follow it, so that it
cannot be longer. A text falls into lexemes of these kinds in one way only: the way it is cut.
-/

set_option autoImplicit false

namespace OwlFunctional

/-! ## Quotes that end a string -/

namespace Text

def slashes (text : List Char) : Nat := (text.reverse.takeWhile (· = '\\')).length

/-- No quote of the text ends a string: the backslashes right before it are odd in number. -/
def QuotesEscaped (text : List Char) : Prop :=
  ∀ before after, text = before ++ '"' :: after → Odd (slashes before)

theorem slashes_le_length (text : List Char) : slashes text ≤ text.length := by
  have short : slashes text ≤ text.reverse.length := (List.takeWhile_prefix _).length_le
  rwa [List.length_reverse] at short

theorem slashes_cons (c : Char) (text : List Char) :
    slashes (c :: text) =
      if c = '\\' ∧ slashes text = text.length then slashes text + 1 else slashes text := by
  have size : text.reverse.length = text.length := List.length_reverse
  unfold slashes
  rw [List.reverse_cons, List.takeWhile_append, size]
  by_cases all : (text.reverse.takeWhile (· = '\\')).length = text.length
  · by_cases slash : c = '\\' <;> simp [all, slash]
  · simp [all]

theorem slashes_cons_of_ne {c : Char} (plain : c ≠ '\\') (text : List Char) :
    slashes (c :: text) = slashes text := by
  rw [slashes_cons, if_neg fun both => plain both.1]

/-- An escaped character in front makes no difference to whether the backslashes pair up. -/
theorem odd_slashes_escaped (c : Char) (text : List Char) :
    Odd (slashes ('\\' :: c :: text)) ↔ Odd (slashes text) := by
  have short := slashes_le_length text
  rw [Nat.odd_iff, Nat.odd_iff, slashes_cons, slashes_cons, List.length_cons]
  by_cases whole : c = '\\' ∧ slashes text = text.length
  · rw [if_pos whole, if_pos ⟨rfl, by rw [whole.2]⟩]
    omega
  · rw [if_neg whole, if_neg (by omega)]

theorem QuotesEscaped.nil : QuotesEscaped [] := by simp [QuotesEscaped]

theorem QuotesEscaped.slash : QuotesEscaped ['\\'] := by
  intro before after same
  cases before with
  | nil => simp at same
  | cons c before => simp at same

theorem QuotesEscaped.escaped {text : List Char} (escaped : QuotesEscaped text) (c : Char) :
    QuotesEscaped ('\\' :: c :: text) := by
  intro before after same
  match before with
  | [] => simp at same
  | [first] =>
    obtain ⟨rfl, -⟩ := List.cons.inj same
    exact odd_one
  | first :: second :: before =>
    obtain ⟨rfl, rfl, inner⟩ : '\\' = first ∧ c = second ∧ text = before ++ '"' :: after := by
      simpa using same
    exact (odd_slashes_escaped _ _).mpr (escaped before after inner)

theorem QuotesEscaped.cons {text : List Char} {c : Char} (escaped : QuotesEscaped text)
    (quote : c ≠ '"') (plain : c ≠ '\\') : QuotesEscaped (c :: text) := by
  intro before after same
  cases before with
  | nil => exact absurd (List.cons.inj same).1 quote
  | cons first before =>
    obtain ⟨rfl, rest⟩ := List.cons.inj same
    rw [slashes_cons_of_ne plain]
    exact escaped before after rest

theorem splitQuoted_escapes (text : List Char) :
    QuotesEscaped (splitQuoted text).1 ∧
      ((splitQuoted text).2.isSome = true → Even (slashes (splitQuoted text).1)) := by
  fun_induction splitQuoted text with
  | case1 => exact ⟨.nil, by simp⟩
  | case2 rest => exact ⟨.nil, fun _ => ⟨0, rfl⟩⟩
  | case3 c rest inside left same ih =>
    rw [same] at ih
    refine ⟨ih.1.escaped c, fun closed => ?_⟩
    rw [← Nat.not_odd_iff_even, odd_slashes_escaped, Nat.not_odd_iff_even]
    exact ih.2 closed
  | case4 c rest quote slash inside left same ih =>
    rw [same] at ih
    by_cases plain : c = '\\'
    · -- A backslash that escapes nothing is the last character of the text.
      obtain rfl : rest = [] := by
        cases rest with
        | nil => rfl
        | cons other rest => exact absurd plain (slash other rest · rfl)
      obtain ⟨rfl, rfl⟩ : [] = inside ∧ none = left := by simpa [splitQuoted] using same
      exact ⟨plain ▸ .slash, by simp⟩
    · refine ⟨ih.1.cons quote plain, fun closed => ?_⟩
      rw [slashes_cons_of_ne plain]
      exact ih.2 closed

theorem splitQuoted_of_even {inside : List Char} (escaped : QuotesEscaped inside)
    (even : Even (slashes inside)) (rest : List Char) :
    splitQuoted (inside ++ '"' :: rest) = (inside, some rest) := by
  have parts := Lexeme.splitQuoted_covers (inside ++ '"' :: rest)
  obtain ⟨escapedThere, evenThere⟩ := splitQuoted_escapes (inside ++ '"' :: rest)
  generalize splitQuoted (inside ++ '"' :: rest) = split at parts escapedThere evenThere ⊢
  obtain ⟨found, left⟩ := split
  -- Of two splits of one text the longer one would have a quote that is and is not escaped.
  rcases List.append_eq_append_iff.mp parts with ⟨more, longer, same⟩ | ⟨more, shorter, same⟩
  · cases more with
    | nil =>
      obtain rfl : found = inside := by simpa using longer
      cases left with
      | none => simp at same
      | some left =>
        obtain rfl : rest = left := by simpa using same
        rfl
    | cons c more =>
      obtain rfl : '"' = c := (List.cons.inj same).1
      exact absurd (escapedThere inside more longer) (Nat.not_odd_iff_even.mpr even)
  · cases left with
    | none => simp at same
    | some left =>
      cases more with
      | nil =>
        obtain rfl : inside = found := by simpa using shorter
        obtain rfl : left = rest := by simpa using same
        rfl
      | cons c more =>
        obtain rfl : '"' = c := (List.cons.inj same).1
        exact absurd (escaped found more shorter) (Nat.not_odd_iff_even.mpr (evenThere rfl))

theorem splitQuoted_of_escaped {text : List Char} (escaped : QuotesEscaped text) :
    splitQuoted text = (text, none) := by
  have parts := Lexeme.splitQuoted_covers text
  obtain ⟨-, even⟩ := splitQuoted_escapes text
  generalize splitQuoted text = split at parts even ⊢
  obtain ⟨found, _ | left⟩ := split
  · obtain rfl : text = found := by simpa using parts
    rfl
  · exact absurd (escaped found left parts) (Nat.not_odd_iff_even.mpr (even rfl))

end Text

/-! ## Words with a meaning of their own -/

namespace Token

def table : List (String × Token) :=
  ("true", boolean true) :: ("false", boolean false) ::
    Keyword.all.map fun reserved => (reserved.text, keyword reserved)

/-- The token of a word: the one of the table, or that of a word with no meaning of its own. -/
def Names (text : String) (token : Token) : Prop :=
  (text, token) ∈ table ∨ token = word ∧ ∀ entry ∈ table, entry.1 ≠ text

theorem ofText?_eq_none_iff {text : String} :
    Keyword.ofText? text = none ↔ ∀ reserved : Keyword, reserved.text ≠ text := by
  rw [Keyword.ofText?, List.find?_eq_none]
  simp [Keyword.mem_all]

theorem forall_table_iff {holds : String × Token → Prop} : (∀ entry ∈ table, holds entry) ↔
    holds ("true", boolean true) ∧ holds ("false", boolean false) ∧
      ∀ reserved : Keyword, holds (reserved.text, keyword reserved) := by
  simp [table, Keyword.mem_all]

theorem ofWord_of_mem {entry : String × Token} (listed : entry ∈ table) :
    ofWord entry.1 = entry.2 := by
  revert entry
  rw [forall_table_iff]
  exact ⟨rfl, rfl, fun reserved => reserved.isWord_text.2⟩

theorem names_iff {text : String} {token : Token} : Names text token ↔ ofWord text = token := by
  constructor
  · rintro (listed | ⟨rfl, unlisted⟩)
    · exact ofWord_of_mem listed
    · obtain ⟨yes, no, others⟩ := forall_table_iff.mp unlisted
      rw [ofWord, if_neg yes.symm, if_neg no.symm, ofText?_eq_none_iff.mpr others]
  · rintro rfl
    by_cases yes : text = "true"
    · subst yes
      exact .inl List.mem_cons_self
    by_cases no : text = "false"
    · subst no
      exact .inl (List.mem_cons_of_mem _ List.mem_cons_self)
    cases found : Keyword.ofText? text with
    | some reserved =>
      obtain rfl := Keyword.text_of_ofText? found
      rw [reserved.isWord_text.2]
      exact .inl (by simp [table, Keyword.mem_all])
    | none =>
      have plain : ofWord text = word := by rw [ofWord, if_neg yes, if_neg no, found]
      exact .inr ⟨plain, forall_table_iff.mpr
        ⟨Ne.symm yes, Ne.symm no, ofText?_eq_none_iff.mp found⟩⟩

end Token

/-! ## The text of each lexeme -/

namespace Lexeme

structure RunsOut (continues : Char → Bool) (run rest : List Char) : Prop where
  inside : run.all continues = true
  ends : ∀ c ∈ rest.head?, continues c = false

theorem runsOut_takeWhile (continues : Char → Bool) (text : List Char) :
    RunsOut continues (text.takeWhile continues) (text.dropWhile continues) :=
  ⟨List.all_takeWhile, dropWhile_ends continues text⟩

/-- A lexeme, the characters that stand for it in a text, and the rest of the text after them. -/
inductive Exact : Lexeme → List Char → List Char → Prop where
  | blank {first : Char} {run rest : List Char} : isBlank first = true →
      RunsOut isBlank run rest → Exact ⟨.blank, .ofList (first :: run)⟩ (first :: run) rest
  | lineFeed {rest : List Char} : Exact ⟨.eol, .ofList ['\n']⟩ ['\n'] rest
  | carriageReturn {rest : List Char} : rest.head? ≠ some '\n' →
      Exact ⟨.eol, .ofList ['\r']⟩ ['\r'] rest
  | bothLineEnds {rest : List Char} : Exact ⟨.eol, .ofList ['\r', '\n']⟩ ['\r', '\n'] rest
  | comment {run rest : List Char} : RunsOut (fun c => !isLineEnd c) run rest →
      Exact ⟨.comment, .ofList ('#' :: run)⟩ ('#' :: run) rest
  | iri {inside rest : List Char} : inside.all insideIri = true →
      Exact ⟨.iri, .ofList ('<' :: inside ++ ['>'])⟩ ('<' :: inside ++ ['>']) rest
  /-- A line end or the end of the text comes before any closing bracket. -/
  | openIri {inside rest : List Char} : inside.all insideIri = true →
      (∀ c ∈ rest.head?, isLineEnd c = true) →
      Exact ⟨.iri, .ofList ('<' :: inside)⟩ ('<' :: inside) rest
  | string {inside rest : List Char} : Text.QuotesEscaped inside → Even (Text.slashes inside) →
      Exact ⟨.string, .ofList inside⟩ ('"' :: inside ++ ['"']) rest
  | openString {inside : List Char} : Text.QuotesEscaped inside →
      Exact ⟨.string, .ofList inside⟩ ('"' :: inside) []
  | doubleCaret {rest : List Char} : Exact ⟨.doubleCaret, .ofList ['^', '^']⟩ ['^', '^'] rest
  | caret {rest : List Char} : rest.head? ≠ some '^' →
      Exact ⟨.illegal, .ofList ['^']⟩ ['^'] rest
  | number {first : Char} {run rest : List Char} : startsNumber first = true →
      RunsOut continuesNumber run rest →
      Exact ⟨numberToken (first :: run), .ofList (first :: run)⟩ (first :: run) rest
  | word {token : Token} {first : Char} {run rest : List Char} : Text.startsWord first = true →
      RunsOut Text.continuesWord run rest → Token.Names (.ofList (first :: run)) token →
      Exact ⟨token, .ofList (first :: run)⟩ (first :: run) rest
  | symbol {first : Char} {rest : List Char} : first ∉ marks → startsNumber first = false →
      Text.startsWord first = false → Exact ⟨symbolToken first, .ofList [first]⟩ [first] rest

def Cut.Takes (cut : Cut) (text : List Char) : Prop :=
  ∃ own, Exact cut.lexeme own cut.rest ∧ text = own ++ cut.rest

theorem cutRun_takes {token : List Char → Token} {continues : Char → Bool} {first : Char}
    {rest : List Char}
    (exact : Exact ⟨token (first :: rest.takeWhile continues),
      .ofList (first :: rest.takeWhile continues)⟩
      (first :: rest.takeWhile continues) (rest.dropWhile continues)) :
    (cutRun token continues first rest).Takes (first :: rest) :=
  ⟨_, exact, by simp [cutRun, Cut.ajar, List.takeWhile_append_dropWhile]⟩

theorem cutLineEnd_takes {first : Char} {rest : List Char} (ends : isLineEnd first = true) :
    (cutLineEnd first rest).Takes (first :: rest) := by
  by_cases feed : first = '\n'
  · subst feed
    exact ⟨_, .lineFeed, rfl⟩
  · obtain rfl : first = '\r' := by simpa [isLineEnd, feed] using ends
    by_cases both : rest.head? = some '\n'
    · obtain ⟨others, rfl⟩ : ∃ others, rest = '\n' :: others := ⟨_, List.eq_cons_of_mem_head? both⟩
      exact ⟨_, .bothLineEnds, rfl⟩
    · rw [cutLineEnd_carriage both]
      exact ⟨_, .carriageReturn both, rfl⟩

theorem cutString_takes (rest : List Char) : (cutString rest).Takes ('"' :: rest) := by
  have parts := splitQuoted_covers rest
  obtain ⟨escaped, even⟩ := Text.splitQuoted_escapes rest
  unfold cutString
  generalize Text.splitQuoted rest = split at parts escaped even ⊢
  obtain ⟨inside, _ | left⟩ := split
  · exact ⟨_, .openString escaped, by simp [Cut.ajar, parts]⟩
  · exact ⟨_, .string escaped (even rfl), by simpa [Cut.shut] using parts⟩

theorem cutCaret_takes (rest : List Char) : (cutCaret rest).Takes ('^' :: rest) := by
  by_cases both : rest.head? = some '^'
  · obtain ⟨others, rfl⟩ : ∃ others, rest = '^' :: others := ⟨_, List.eq_cons_of_mem_head? both⟩
    exact ⟨_, .doubleCaret, rfl⟩
  · rw [cutCaret_single both]
    exact ⟨_, .caret both, rfl⟩

theorem cutIri_takes (rest : List Char) : (cutIri rest).Takes ('<' :: rest) := by
  obtain ⟨inside, ends⟩ := runsOut_takeWhile insideIri rest
  have parts := List.takeWhile_append_dropWhile (p := insideIri) (l := rest)
  by_cases closed : (rest.dropWhile insideIri).head? = some '>'
  · obtain ⟨others, bracket⟩ : ∃ others, rest.dropWhile insideIri = '>' :: others :=
      ⟨_, List.eq_cons_of_mem_head? closed⟩
    rw [bracket] at parts
    rw [cutIri_closed bracket]
    exact ⟨_, .iri inside, by simpa [Cut.shut] using parts.symm⟩
  · rw [cutIri_open closed]
    refine ⟨_, .openIri inside fun c member => ?_, by simp [Cut.ajar]⟩
    have other : c ≠ '>' := fun same => closed (same ▸ member)
    simpa [insideIri, other] using ends c member

theorem cut_takes (first : Char) (rest : List Char) : (cut first rest).Takes (first :: rest) := by
  -- The tests of `cut` in their order. A symbol is what failed them all.
  unfold cut
  by_cases blank : isBlank first = true
  · rw [if_pos blank]
    exact cutRun_takes (.blank blank (runsOut_takeWhile _ _))
  rw [if_neg blank]
  by_cases line : isLineEnd first = true
  · rw [if_pos line]
    exact cutLineEnd_takes line
  rw [if_neg line]
  by_cases quote : first = '"'
  · rw [if_pos quote]
    exact quote ▸ cutString_takes rest
  rw [if_neg quote]
  by_cases hash : first = '#'
  · rw [if_pos hash]
    exact cutRun_takes (hash ▸ .comment (runsOut_takeWhile _ _))
  rw [if_neg hash]
  by_cases caret : first = '^'
  · rw [if_pos caret]
    exact caret ▸ cutCaret_takes rest
  rw [if_neg caret]
  by_cases bracket : first = '<'
  · rw [if_pos bracket]
    exact bracket ▸ cutIri_takes rest
  rw [if_neg bracket]
  by_cases number : startsNumber first = true
  · rw [if_pos number]
    exact cutRun_takes (.number number (runsOut_takeWhile _ _))
  rw [if_neg number]
  by_cases word : Text.startsWord first = true
  · rw [if_pos word]
    exact cutRun_takes (.word word (runsOut_takeWhile _ _) (Token.names_iff.mpr rfl))
  rw [if_neg word]
  have unmarked : first ∉ marks := by
    simp_all [marks, isBlank, isLineEnd]
  exact ⟨_, .symbol unmarked (Bool.eq_false_iff.mpr number) (Bool.eq_false_iff.mpr word), rfl⟩

section

variable {first : Char} {run inside rest : List Char}

theorem cut_blank (blank : isBlank first = true) (runs : RunsOut isBlank run rest) :
    cut first (run ++ rest) = .ajar .blank (first :: run) rest := by
  rw [cut, if_pos blank, cutRun_append runs.inside runs.ends]

theorem cut_comment (runs : RunsOut (fun c => !isLineEnd c) run rest) :
    cut '#' (run ++ rest) = .ajar .comment ('#' :: run) rest := by
  change cutRun (fun _ => .comment) (fun c => !isLineEnd c) '#' (run ++ rest) = _
  rw [cutRun_append runs.inside runs.ends]

theorem cut_openIri (allowed : inside.all insideIri = true)
    (lines : ∀ c ∈ rest.head?, isLineEnd c = true) :
    cut '<' (inside ++ rest) = .ajar .iri ('<' :: inside) rest := by
  have ends : ∀ c ∈ rest.head?, insideIri c = false := fun c member => by
    simp [insideIri, lines c member]
  have unclosed : rest.head? ≠ some '>' := fun closed => by
    simpa [isLineEnd] using lines '>' closed
  have dropped := dropWhile_run allowed ends
  change cutIri (inside ++ rest) = _
  rw [cutIri_open (dropped.symm ▸ unclosed), dropped, takeWhile_run allowed ends]

theorem cut_string (escaped : Text.QuotesEscaped inside) (even : Even (Text.slashes inside))
    (rest : List Char) : cut '"' (inside ++ ['"'] ++ rest) = .shut .string inside rest := by
  rw [List.append_assoc, List.singleton_append]
  change cutString (inside ++ '"' :: rest) = _
  rw [cutString, Text.splitQuoted_of_even escaped even]

theorem cut_openString (escaped : Text.QuotesEscaped inside) :
    cut '"' (inside ++ []) = .ajar .string inside [] := by
  rw [List.append_nil]
  change cutString inside = _
  rw [cutString, Text.splitQuoted_of_escaped escaped]

end

theorem Exact.cut {lexeme : Lexeme} {own rest : List Char} (exact : Exact lexeme own rest) :
    ∃ first run, own = first :: run ∧ (cut first (run ++ rest)).lexeme = lexeme ∧
      (cut first (run ++ rest)).rest = rest := by
  have cutOff {first : Char} {run : List Char} {piece : Cut}
      (same : Lexeme.cut first (run ++ rest) = piece) (told : piece.lexeme = lexeme)
      (left : piece.rest = rest) : ∃ one others, first :: run = one :: others ∧
        (Lexeme.cut one (others ++ rest)).lexeme = lexeme ∧
        (Lexeme.cut one (others ++ rest)).rest = rest :=
    ⟨first, run, rfl, same ▸ told, same ▸ left⟩
  cases exact with
  | blank blank runs => exact cutOff (cut_blank blank runs) rfl rfl
  | lineFeed => exact ⟨'\n', [], rfl, rfl, rfl⟩
  | carriageReturn alone => exact cutOff (cutLineEnd_carriage alone) rfl rfl
  | bothLineEnds => exact ⟨'\r', ['\n'], rfl, rfl, rfl⟩
  | comment runs => exact cutOff (cut_comment runs) rfl rfl
  | iri allowed => exact cutOff (cut_iri allowed rest) rfl rfl
  | openIri allowed lines => exact cutOff (cut_openIri allowed lines) rfl rfl
  | string escaped even => exact cutOff (cut_string escaped even rest) rfl rfl
  | openString escaped => exact cutOff (cut_openString escaped) rfl rfl
  | doubleCaret => exact ⟨'^', ['^'], rfl, rfl, rfl⟩
  | caret alone => exact cutOff (cutCaret_single alone) rfl rfl
  | @number first run rest starts runs =>
    refine ⟨first, run, rfl, ?_⟩
    rw [cut_number starts, cutRun_append runs.inside runs.ends]
    exact ⟨rfl, rfl⟩
  | @word token first run rest starts runs names =>
    refine ⟨first, run, rfl, ?_⟩
    rw [cut_word starts, cutRun_append runs.inside runs.ends, ← Token.names_iff.mp names]
    exact ⟨rfl, rfl⟩
  | @symbol first rest unmarked number word =>
    refine ⟨first, [], rfl, ?_⟩
    rw [List.nil_append, cut_of_unmarked unmarked, number, word]
    exact ⟨rfl, rfl⟩

theorem Exact.ne_nil {lexeme : Lexeme} {own rest : List Char} (exact : Exact lexeme own rest) :
    own ≠ [] := by
  obtain ⟨first, run, rfl, -⟩ := exact.cut
  exact List.cons_ne_nil first run

theorem Exact.own_eq {lexeme : Lexeme} {own rest : List Char} (exact : Exact lexeme own rest) :
    own = lexeme.inText ∨
      lexeme.token = .string ∧ rest = [] ∧ own = '"' :: lexeme.literal.toList := by
  cases exact with
  | openString => exact .inr ⟨rfl, rfl, by simp⟩
  | @number first run =>
    rcases numberToken_cases (first :: run) with ⟨kind, -⟩ | ⟨kind, -⟩ | kind <;>
      exact .inl (by simp [inText, kind])
  | @word token first run _ _ _ names =>
    have other : token ≠ .string := Token.names_iff.mp names ▸ ofWord_ne rfl _
    exact .inl (by simp [inText, other])
  | @symbol first => exact .inl (by simp [inText, symbolToken_ne_string first])
  | _ => exact .inl (by simp [inText])

/-! ## The lexemes of a whole text -/

/-- A text falls into lexemes, each before the rest of the text. -/
inductive Divides : List Char → List Lexeme → Prop where
  | nil : Divides [] []
  | cons {lexeme : Lexeme} {own rest : List Char} {lexemes : List Lexeme} :
      Exact lexeme own rest → Divides rest lexemes → Divides (own ++ rest) (lexeme :: lexemes)

/-- A text falls into lexemes in one way only. -/
theorem divides_iff {text : List Char} {lexemes : List Lexeme} :
    Divides text lexemes ↔ lexemesOf text = lexemes := by
  constructor
  · intro divides
    induction divides with
    | nil => rfl
    | cons exact _ ih =>
      obtain ⟨first, run, rfl, head, rest⟩ := exact.cut
      rw [List.cons_append, lexemesOf_cons, head, rest, ih]
  · rintro rfl
    induction text using cut_induction with
    | nil => exact .nil
    | cons first rest ih =>
      obtain ⟨own, exact, same⟩ := cut_takes first rest
      rw [lexemesOf_cons, same]
      exact .cons exact ih

/-- The characters of each lexeme of a text. Only the last lexeme can be a string that no quote
ends. -/
theorem Divides.sources {text : List Char} {lexemes : List Lexeme}
    (divides : Divides text lexemes) :
    ∃ sources : List (List Char), sources.flatten = text ∧ sources.length = lexemes.length ∧
      ∀ index lexeme own, lexemes[index]? = some lexeme → sources[index]? = some own →
        own ≠ [] ∧ Exact lexeme own (sources.drop (index + 1)).flatten ∧
        (own = lexeme.inText ∨ lexeme.token = .string ∧ index + 1 = lexemes.length ∧
          own = '"' :: lexeme.literal.toList) := by
  induction divides with
  | nil => exact ⟨[], rfl, rfl, by simp⟩
  | @cons lexeme own rest lexemes exact divides ih =>
    obtain ⟨sources, flat, count, each⟩ := ih
    refine ⟨own :: sources, by rw [List.flatten_cons, flat], by simp [count], fun index => ?_⟩
    cases index with
    | zero =>
      rintro _ _ ⟨⟩ ⟨⟩
      refine ⟨exact.ne_nil, flat ▸ exact,
        exact.own_eq.imp_right fun ⟨string, ended, unclosed⟩ => ?_⟩
      obtain rfl : lexemes = [] := by rw [← divides_iff.mp divides, ended, lexemesOf_nil]
      exact ⟨string, rfl, unclosed⟩
    | succ index => simpa using each index

/-- A text is partitioned by the lexemes that a stream over it gives before its end.

They are the only ones it falls into. The characters of each are not empty, and all of them together
are the text. -/
theorem scan_divides_text (source text : String) :
    ∃ lexemes, (∀ others, Divides text.toList others ↔ others = lexemes) ∧
      (∀ lexeme ∈ lexemes, lexeme.token ≠ .eof) ∧
      (∀ index, ((Stream.ofInput source (.ofString text)).skip index).scan.1.lexeme =
        lexemeAt lexemes index) ∧
      ∃ sources : List (List Char), sources.flatten = text.toList ∧
        sources.length = lexemes.length ∧
        ∀ index lexeme own, lexemes[index]? = some lexeme → sources[index]? = some own →
          own ≠ [] ∧ Exact lexeme own (sources.drop (index + 1)).flatten ∧
          (own = lexeme.inText ∨ lexeme.token = .string ∧ index + 1 = lexemes.length ∧
            own = '"' :: lexeme.literal.toList) := by
  refine ⟨lexemesOf text.toList, fun others => divides_iff.trans eq_comm,
    fun lexeme member => (lexemesOf_formed _ lexeme member).ne_eof, fun index => ?_,
    (divides_iff.mpr rfl).sources⟩
  obtain ⟨_, reached⟩ := (Stream.ofInput_stands source (.ofString text) false).skip index
  rw [Input.chars_ofString, Nat.zero_add] at reached
  exact congrArg Scanned.lexeme reached.scanned

end Lexeme

end OwlFunctional
