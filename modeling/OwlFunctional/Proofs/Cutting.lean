import OwlFunctional.Proofs.Printing.Lexeme

/-! Where a lexeme ends.

A lexeme takes as many characters as it can, so the next character alone decides where it ends. The
text after it can be replaced by any other that starts alike. Lexemes can be written one after the
other, and those that are read from what was written tell which of them may follow each other.
-/

set_option autoImplicit false

namespace OwlFunctional.Lexeme

/-! ## Another text after a lexeme -/

/-- A text can take the place of another one after a lexeme: it starts with the same character, or
with an opening bracket where the other one starts within a line. -/
def Succeeds (given after : List Char) : Prop :=
  ∀ c ∈ given.head?, c ∈ after.head? ∨ c = '<' ∧ ∃ other ∈ after.head?, isLineEnd other = false

theorem Succeeds.of_head? {given after : List Char} (same : given.head? = after.head?) :
    Succeeds given after := fun _ member => .inl (same ▸ member)

theorem Succeeds.of_starts {given after : List Char} (starts : given <+: after) :
    Succeeds given after := by
  obtain ⟨others, rfl⟩ := starts
  intro c member
  left
  rw [List.head?_append, Option.mem_def.mp member]
  rfl

theorem Succeeds.eq_nil {given : List Char} (succeeds : Succeeds given []) : given = [] := by
  cases given with
  | nil => rfl
  | cons c given => simpa using succeeds c rfl

theorem Succeeds.ne {given after : List Char} (succeeds : Succeeds given after) {c : Char}
    (other : after.head? ≠ some c) (bracket : c ≠ '<') : given.head? ≠ some c := by
  intro found
  rcases succeeds c found with same | ⟨rfl, -⟩
  · exact other same
  · exact bracket rfl

theorem dropWhile_ends (continues : Char → Bool) (rest : List Char) :
    ∀ c ∈ (rest.dropWhile continues).head?, continues c = false := by
  intro c member
  simpa [Option.mem_def.mp member] using List.head?_dropWhile_not continues rest

/-- What does not go on with a run of characters does not after the replacement. An opening bracket
could only go on with a comment or an identifier, and those end with their line. -/
theorem Succeeds.ends {continues : Char → Bool} {given after : List Char}
    (succeeds : Succeeds given after) (ended : ∀ c ∈ after.head?, continues c = false)
    (stops : continues '<' = false ∨ ∀ c ∈ after.head?, isLineEnd c = true) :
    ∀ c ∈ given.head?, continues c = false := by
  intro c member
  rcases succeeds c member with same | ⟨rfl, other, first, within⟩
  · exact ended c same
  · rcases stops with bracket | lines
    · exact bracket
    · simp [lines other first] at within

section

variable {first : Char} {taken after given : List Char}

theorem cutRun_before {token : List Char → Token} {continues : Char → Bool}
    (stops : continues '<' = false ∨ ∀ c, continues c = false → isLineEnd c = true)
    (left : (cutRun token continues first (taken ++ after)).rest = after)
    (succeeds : Succeeds given after) :
    (cutRun token continues first (taken ++ given)).lexeme =
        (cutRun token continues first (taken ++ after)).lexeme ∧
      (cutRun token continues first (taken ++ given)).rest = given := by
  change (taken ++ after).dropWhile continues = after at left
  have whole := List.takeWhile_append_dropWhile (p := continues) (l := taken ++ after)
  rw [left] at whole
  have run : (taken ++ after).takeWhile continues = taken := List.append_cancel_right whole
  have inside : taken.all continues = true := run ▸ List.all_takeWhile
  have ended : ∀ c ∈ after.head?, continues c = false := left ▸ dropWhile_ends continues _
  rw [cutRun_append inside (succeeds.ends ended
    (stops.imp_right fun lines c member => lines c (ended c member)))]
  exact ⟨by rw [cutRun, run]; rfl, rfl⟩

theorem cutLineEnd_carriage {rest : List Char} (alone : rest.head? ≠ some '\n') :
    cutLineEnd '\r' rest = .ajar .eol ['\r'] rest := by
  unfold cutLineEnd
  rw [if_neg (by decide)]
  split
  · simp at alone
  · rfl

theorem cutLineEnd_before (ends : isLineEnd first = true)
    (left : (cutLineEnd first (taken ++ after)).rest = after) (succeeds : Succeeds given after) :
    (cutLineEnd first (taken ++ given)).lexeme = (cutLineEnd first (taken ++ after)).lexeme ∧
      (cutLineEnd first (taken ++ given)).rest = given := by
  by_cases feed : first = '\n'
  · subst feed
    obtain rfl : taken = [] := by simpa [cutLineEnd, Cut.shut] using left
    exact ⟨rfl, rfl⟩
  · obtain rfl : first = '\r' := by simpa [isLineEnd, feed] using ends
    by_cases both : (taken ++ after).head? = some '\n'
    · -- The line feed belongs to the line end, so it is not among what is left.
      obtain ⟨others, same⟩ : ∃ others, taken ++ after = '\n' :: others :=
        ⟨_, List.eq_cons_of_mem_head? both⟩
      rw [same] at left
      obtain rfl : others = after := left
      obtain rfl : taken = ['\n'] :=
        List.append_cancel_right (same.trans (List.singleton_append).symm)
      exact ⟨rfl, rfl⟩
    · rw [cutLineEnd_carriage both] at left ⊢
      obtain rfl : taken = [] := by simpa [Cut.ajar] using left
      rw [List.nil_append, cutLineEnd_carriage (succeeds.ne both (by decide))]
      exact ⟨rfl, rfl⟩

theorem splitQuoted_before {text inside after : List Char}
    (closed : Text.splitQuoted text = (inside, some after)) (given : List Char) :
    text = inside ++ '"' :: after ∧
      Text.splitQuoted (inside ++ '"' :: given) = (inside, some given) := by
  fun_induction Text.splitQuoted text generalizing inside with
  | case1 => simp at closed
  | case2 rest =>
    obtain ⟨rfl, rfl⟩ : [] = inside ∧ rest = after := by simpa using closed
    exact ⟨rfl, rfl⟩
  | case3 c rest within left same ih =>
    obtain ⟨rfl, rfl⟩ : '\\' :: c :: within = inside ∧ left = some after := by simpa using closed
    obtain ⟨whole, again⟩ := ih same
    exact ⟨by rw [whole]; rfl, by simp [Text.splitQuoted, again]⟩
  | case4 c rest quote slash within left same ih =>
    obtain ⟨rfl, rfl⟩ : c :: within = inside ∧ left = some after := by simpa using closed
    obtain ⟨whole, again⟩ := ih same
    have plain : c ≠ '\\' := by
      rintro rfl
      cases rest with
      | nil => simp [Text.splitQuoted] at same
      | cons escaped rest => exact slash escaped rest rfl rfl
    exact ⟨by rw [whole]; rfl, by simp [Text.splitQuoted, plain, again]⟩

theorem cutString_before (left : (cutString (taken ++ after)).rest = after)
    (succeeds : Succeeds given after) :
    (cutString (taken ++ given)).lexeme = (cutString (taken ++ after)).lexeme ∧
      (cutString (taken ++ given)).rest = given := by
  rcases split : Text.splitQuoted (taken ++ after) with ⟨inside, _ | rest⟩
  · -- An open string ends with the text.
    have whole : (cutString (taken ++ after)).rest = [] := by rw [cutString, split]; rfl
    obtain rfl : after = [] := left.symm.trans whole
    obtain rfl := succeeds.eq_nil
    exact ⟨rfl, left⟩
  · have cutOff : cutString (taken ++ after) = .shut .string inside rest := by rw [cutString, split]
    rw [cutOff] at left ⊢
    obtain rfl : rest = after := left
    obtain ⟨whole, again⟩ := splitQuoted_before split given
    obtain rfl : taken = inside ++ ['"'] := List.append_cancel_right (by simpa using whole)
    rw [List.append_assoc, List.singleton_append, cutString, again]
    exact ⟨rfl, rfl⟩

theorem cutCaret_single {rest : List Char} (alone : rest.head? ≠ some '^') :
    cutCaret rest = .ajar .illegal ['^'] rest := by
  unfold cutCaret
  split
  · simp at alone
  · rfl

theorem cutCaret_before (left : (cutCaret (taken ++ after)).rest = after)
    (succeeds : Succeeds given after) :
    (cutCaret (taken ++ given)).lexeme = (cutCaret (taken ++ after)).lexeme ∧
      (cutCaret (taken ++ given)).rest = given := by
  by_cases both : (taken ++ after).head? = some '^'
  · obtain ⟨others, same⟩ : ∃ others, taken ++ after = '^' :: others :=
      ⟨_, List.eq_cons_of_mem_head? both⟩
    rw [same] at left
    obtain rfl : others = after := left
    obtain rfl : taken = ['^'] :=
      List.append_cancel_right (same.trans (List.singleton_append).symm)
    exact ⟨rfl, rfl⟩
  · rw [cutCaret_single both] at left ⊢
    obtain rfl : taken = [] := by simpa [Cut.ajar] using left
    rw [List.nil_append, cutCaret_single (succeeds.ne both (by decide))]
    exact ⟨rfl, rfl⟩

theorem cutIri_open {rest : List Char} (unclosed : (rest.dropWhile insideIri).head? ≠ some '>') :
    cutIri rest = .ajar .iri ('<' :: rest.takeWhile insideIri) (rest.dropWhile insideIri) := by
  unfold insideIri at unclosed ⊢
  unfold cutIri
  dsimp only
  split
  · next closed => simp [closed] at unclosed
  · rfl

theorem cutIri_closed {rest others : List Char}
    (closed : rest.dropWhile insideIri = '>' :: others) :
    cutIri rest = .shut .iri ('<' :: rest.takeWhile insideIri ++ ['>']) others := by
  unfold insideIri at closed ⊢
  simp only [cutIri, closed]

theorem cutIri_before (left : (cutIri (taken ++ after)).rest = after)
    (succeeds : Succeeds given after) :
    (cutIri (taken ++ given)).lexeme = (cutIri (taken ++ after)).lexeme ∧
      (cutIri (taken ++ given)).rest = given := by
  have parts := List.takeWhile_append_dropWhile (p := insideIri) (l := taken ++ after)
  have allowed : ((taken ++ after).takeWhile insideIri).all insideIri = true := List.all_takeWhile
  by_cases both : ((taken ++ after).dropWhile insideIri).head? = some '>'
  · obtain ⟨others, closed⟩ : ∃ others, (taken ++ after).dropWhile insideIri = '>' :: others :=
      ⟨_, List.eq_cons_of_mem_head? both⟩
    rw [cutIri_closed closed] at left ⊢
    obtain rfl : others = after := left
    rw [closed] at parts
    -- The bracket was among the characters taken, so the new rest cannot be reached before it.
    generalize (taken ++ others).takeWhile insideIri = inside at parts allowed
    obtain rfl : inside ++ ['>'] = taken := List.append_cancel_right (by simpa using parts)
    have cutOff : cutIri (inside ++ ['>'] ++ given) =
        .shut .iri ('<' :: inside ++ ['>']) given := by
      have ends : ∀ c ∈ ('>' :: given).head?, insideIri c = false := by simp [insideIri]
      rw [List.append_assoc, List.singleton_append, cutIri_closed (dropWhile_run allowed ends),
        takeWhile_run allowed ends]
    rw [cutOff]
    exact ⟨rfl, rfl⟩
  · rw [cutIri_open both] at left ⊢
    change (taken ++ after).dropWhile insideIri = after at left
    rw [left] at parts both
    -- No bracket was met. The new rest must stop the run in its turn.
    have run : (taken ++ after).takeWhile insideIri = taken := List.append_cancel_right parts
    rw [run] at allowed ⊢
    have ended : ∀ c ∈ after.head?, insideIri c = false := left ▸ dropWhile_ends insideIri _
    have lines : ∀ c ∈ after.head?, isLineEnd c = true := by
      intro c member
      have other : c ≠ '>' := fun same => both (same ▸ member)
      simpa [insideIri, other] using ended c member
    have ends := succeeds.ends ended (.inr lines)
    have dropped := dropWhile_run allowed ends
    rw [cutIri_open (dropped.symm ▸ succeeds.ne both (by decide)), dropped,
      takeWhile_run allowed ends]
    exact ⟨rfl, rfl⟩

/-- A lexeme is cut off in the same way before a text that can take the place of the rest. -/
theorem cut_before (left : (cut first (taken ++ after)).rest = after)
    (succeeds : Succeeds given after) :
    (cut first (taken ++ given)).lexeme = (cut first (taken ++ after)).lexeme ∧
      (cut first (taken ++ given)).rest = given := by
  unfold cut at left ⊢
  by_cases blank : isBlank first = true
  · simp only [if_pos blank] at left ⊢
    exact cutRun_before (.inl rfl) left succeeds
  simp only [if_neg blank] at left ⊢
  by_cases line : isLineEnd first = true
  · simp only [if_pos line] at left ⊢
    exact cutLineEnd_before line left succeeds
  simp only [if_neg line] at left ⊢
  by_cases quote : first = '"'
  · simp only [if_pos quote] at left ⊢
    exact cutString_before left succeeds
  simp only [if_neg quote] at left ⊢
  by_cases sign : first = '#'
  · simp only [if_pos sign] at left ⊢
    exact cutRun_before (.inr (by simp)) left succeeds
  simp only [if_neg sign] at left ⊢
  by_cases caret : first = '^'
  · simp only [if_pos caret] at left ⊢
    exact cutCaret_before left succeeds
  simp only [if_neg caret] at left ⊢
  by_cases bracket : first = '<'
  · simp only [if_pos bracket] at left ⊢
    exact cutIri_before left succeeds
  simp only [if_neg bracket] at left ⊢
  by_cases number : startsNumber first = true
  · simp only [if_pos number] at left ⊢
    exact cutRun_before (.inl rfl) left succeeds
  simp only [if_neg number] at left ⊢
  by_cases word : Text.startsWord first = true
  · simp only [if_pos word] at left ⊢
    exact cutRun_before (.inl rfl) left succeeds
  simp only [if_neg word] at left ⊢
  -- A symbol is a single character.
  obtain rfl : taken = [] := by simpa [Cut.shut] using left
  exact ⟨rfl, rfl⟩

end

/-! ## Texts between lexemes -/

theorem exists_texts_of_append {text : List Char} {taken rest : List Lexeme}
    (divided : lexemesOf text = taken ++ rest) :
    ∃ before after, text = before ++ after ∧ lexemesOf before = taken ∧ lexemesOf after = rest := by
  induction text using cut_induction generalizing taken with
  | nil =>
    obtain ⟨rfl, rfl⟩ := List.append_eq_nil_iff.mp divided.symm
    exact ⟨[], [], rfl, rfl, rfl⟩
  | cons first others ih =>
    cases taken with
    | nil => exact ⟨[], first :: others, rfl, rfl, divided⟩
    | cons lexeme taken =>
      rw [lexemesOf_cons, List.cons_append] at divided
      obtain ⟨head, tail⟩ := List.cons.inj divided
      obtain ⟨before, after, left, covered, follow⟩ := ih tail
      obtain ⟨own, stands, whole⟩ := cut_covers first others
      obtain ⟨start, run, rfl⟩ := List.exists_cons_of_ne_nil stands.ne_nil
      rw [List.cons_append, left] at whole
      obtain ⟨rfl, rfl⟩ := List.cons.inj whole
      -- The first lexeme ends where it did, since what follows starts alike.
      obtain ⟨again, rest⟩ := cut_before left (.of_starts (List.prefix_append before after))
      refine ⟨first :: run ++ before, after, by simp, ?_, follow⟩
      rw [List.cons_append, lexemesOf_cons, again, rest, head, covered]

/-! ## Lexemes written one after the other -/

/-- A lexeme as it stands in a text. The quotes of a string are not part of its literal. -/
def inText (lexeme : Lexeme) : List Char :=
  if lexeme.token = .string then '"' :: (lexeme.literal.toList ++ ['"'])
  else lexeme.literal.toList

def asText (lexemes : List Lexeme) : List Char := lexemes.flatMap inText

@[simp] theorem asText_nil : asText [] = [] := rfl

@[simp] theorem asText_cons (lexeme : Lexeme) (others : List Lexeme) :
    asText (lexeme :: others) = lexeme.inText ++ asText others := List.flatMap_cons

def Legible (lexemes : List Lexeme) : Prop := lexemesOf (asText lexemes) = lexemes

/-- Only a string at the end of a text can stand there without its closing quote. -/
theorem cut_inText (first : Char) (rest : List Char) :
    first :: rest = (cut first rest).lexeme.inText ++ (cut first rest).rest ∨
      (cut first rest).lexeme.token = .string ∧ (cut first rest).rest = [] := by
  by_cases quote : first = '"'
  · subst quote
    change _ = (cutString rest).lexeme.inText ++ (cutString rest).rest ∨
      (cutString rest).lexeme.token = .string ∧ (cutString rest).rest = []
    have parts := splitQuoted_covers rest
    rcases split : Text.splitQuoted rest with ⟨inside, _ | after⟩
    · rw [cutString, split]
      exact .inr ⟨rfl, rfl⟩
    · rw [split] at parts
      rw [cutString, split]
      exact .inl (by simpa [inText, Cut.shut] using parts)
  · obtain ⟨written, stands, same⟩ := cut_covers first rest
    generalize (cut first rest).lexeme = lexeme at stands
    cases stands with
    | plain other _ => exact .inl (by simpa [inText, other] using same)
    | quoted => exact absurd (List.cons.inj same).1 quote
    | unclosed => exact absurd (List.cons.inj same).1 quote

theorem asText_lexemesOf {text : List Char}
    (closed : ∀ lexeme ∈ (lexemesOf text).getLast?, lexeme.token ≠ .string) :
    asText (lexemesOf text) = text := by
  induction text using cut_induction with
  | nil => rfl
  | cons first rest ih =>
    rw [lexemesOf_cons] at closed ⊢
    rcases cut_inText first rest with whole | ⟨string, ended⟩
    · rw [asText_cons, ih, ← whole]
      intro lexeme member
      refine closed lexeme ?_
      rw [List.getLast?_cons, Option.mem_def.mp member]
      rfl
    · rw [ended] at closed
      exact absurd string (closed _ rfl)

theorem Legible.cut_first {lexeme : Lexeme} {others : List Lexeme}
    (legible : Legible (lexeme :: others)) :
    ∃ first taken, lexeme.inText = first :: taken ∧
      (cut first (taken ++ asText others)).lexeme = lexeme ∧
      (cut first (taken ++ asText others)).rest = asText others ∧ Legible others := by
  have read := legible
  rw [Legible, asText_cons] at read
  obtain ⟨first, rest, text⟩ : ∃ first rest, lexeme.inText ++ asText others = first :: rest := by
    refine List.exists_cons_of_ne_nil fun empty => ?_
    simp [empty] at read
  rw [text, lexemesOf_cons] at read
  obtain ⟨same, later⟩ := List.cons.inj read
  have left : (cut first rest).rest = asText others := by
    rcases cut_inText first rest with whole | ⟨-, ended⟩
    · rw [← text, same] at whole
      exact (List.append_cancel_left whole).symm
    · rw [ended] at later ⊢
      rw [← later]
      rfl
  obtain ⟨taken, written⟩ : ∃ taken, lexeme.inText = first :: taken := by
    cases written : lexeme.inText with
    | nil =>
      have fewer := cut_rest_length_le first rest
      rw [written, List.nil_append] at text
      rw [left, text, List.length_cons] at fewer
      omega
    | cons other taken =>
      rw [written] at text
      exact ⟨taken, by rw [(List.cons.inj text).1]⟩
  have legibly : Legible others := by rwa [Legible, ← left]
  obtain rfl : taken ++ asText others = rest := by
    rw [written] at text
    exact (List.cons.inj text).2
  exact ⟨first, taken, written, same, left, legibly⟩

/-- Lexemes that can be written in place of others, after whatever those are written after. -/
structure Replaces (given after : List Lexeme) : Prop where
  legible : Legible given
  succeeds : Succeeds (asText given) (asText after)

theorem Replaces.cons {lexeme : Lexeme} {given after : List Lexeme}
    (replaces : Replaces given after) (legible : Legible (lexeme :: after)) :
    Replaces (lexeme :: given) (lexeme :: after) := by
  obtain ⟨first, taken, written, same, left, -⟩ := legible.cut_first
  obtain ⟨again, remains⟩ := cut_before left replaces.succeeds
  constructor
  · rw [Legible, asText_cons, written, List.cons_append, lexemesOf_cons, again, remains, same,
      replaces.legible]
  · refine .of_head? ?_
    rw [asText_cons, asText_cons, written]
    rfl

theorem Replaces.append {taken given after : List Lexeme} (replaces : Replaces given after)
    (legible : Legible (taken ++ after)) : Replaces (taken ++ given) (taken ++ after) := by
  induction taken with
  | nil => exact replaces
  | cons lexeme taken ih =>
    obtain ⟨_, _, -, -, -, later⟩ := legible.cut_first
    exact (ih later).cons legible

theorem Legible.suffix {taken rest : List Lexeme} (legible : Legible (taken ++ rest)) :
    Legible rest := by
  induction taken with
  | nil => exact legible
  | cons lexeme taken ih =>
    obtain ⟨_, _, -, -, -, later⟩ := legible.cut_first
    exact ih later

theorem cut_lineEnd {first : Char} (line : isLineEnd first = true) (rest : List Char) :
    (cut first rest).lexeme.token = .eol := by
  have blank : ¬ isBlank first = true := by
    intro blank
    rcases (by simpa [isLineEnd] using line : first = '\n' ∨ first = '\r') with rfl | rfl <;>
      simp [isBlank] at blank
  rw [cut, if_neg blank, if_pos line]
  unfold cutLineEnd
  repeat' split
  all_goals rfl

end OwlFunctional.Lexeme
