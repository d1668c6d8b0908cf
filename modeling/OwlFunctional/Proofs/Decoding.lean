import OwlFunctional.Proofs.Exactness
import OwlFunctional.Proofs.Faults

/-! What a stream gives of the bytes that its reader delivers.

Its lexemes are those of the longest text that the bytes start with. What comes after that text
decides which fault there is. The fault is given once, after the end was looked at, in whatever
order lexemes and faults are asked for.
-/

set_option autoImplicit false

namespace OwlFunctional

/-! ## The longest text that bytes start with -/

namespace Text.Utf8

theorem encode_chars_starts (bytes : List UInt8) : encode (decode bytes).chars <+: bytes := by
  obtain ⟨rest, same, -⟩ := decode_stops bytes
  exact ⟨rest, same.symm⟩

theorem prefix_chars {text : List Char} {bytes : List UInt8} (starts : encode text <+: bytes) :
    text <+: (decode bytes).chars := by
  obtain ⟨rest, rfl⟩ := starts
  obtain ⟨found, -, same, -⟩ := decodeAfter_leaves (text.reverse ++ []) rest
  rw [decode, decodeAfter_encode_append, same]
  exact ⟨found, by simp⟩

/-- The bytes are those of a text and then the first ones of another character, but not all. -/
def EndsInside (bytes : List UInt8) : Prop :=
  ∃ text c before after, bytes = encode text ++ before ∧
    String.utf8EncodeChar c = before ++ after ∧ before ≠ [] ∧ after ≠ []

theorem EndsInside.cut {bytes : List UInt8} (inside : EndsInside bytes) :
    (decode bytes).ending = .cut := by
  obtain ⟨text, c, before, after, rfl, whole, started, missing⟩ := inside
  have short : CutShort before := by
    have starts : String.utf8EncodeChar c <+: before ++ after := whole ▸ List.prefix_rfl
    have width := starts_width starts
    rw [List.head?_append_of_ne_nil _ started] at width
    refine ⟨_, width, ?_⟩
    rw [whole, List.length_append]
    exact Nat.lt_add_of_pos_right (List.length_pos_iff.mpr missing)
  rw [decode_eq_iff.mpr ⟨before, rfl, .cut short⟩]

end Text.Utf8

namespace Input

variable {input : Input}

theorem ending_ne_complete (strange : ¬ input.IsText) :
    (Text.Utf8.decode input.bytes).ending ≠ .complete :=
  fun complete => strange (Text.Utf8.decode_complete_iff.mp complete)

theorem fault_of_not_isText (ended : input.failure = none) (strange : ¬ input.IsText) :
    input.fault = some .notUtf8 := by
  have incomplete := ending_ne_complete strange
  unfold fault
  split
  · contradiction
  · rw [ended]
    rfl
  · rfl

theorem fault_of_failure {reason : Fault} (failed : input.failure = some reason)
    (blamed : input.IsText ∨ Text.Utf8.EndsInside input.bytes) : input.fault = some reason := by
  rcases blamed with whole | inside
  · rw [fault, Text.Utf8.decode_complete_iff.mpr whole]
    exact failed
  · rw [fault, inside.cut, failed]
    rfl

end Input

/-! ## Lexemes and faults, asked for in any order -/

inductive Pull where
  | lexeme
  | fault
  deriving DecidableEq, Repr

/-- A stream, with what it gave before. -/
structure Haul where
  lexemes : List Lexeme
  faults : List Fault
  stream : Stream

namespace Haul

def pull (haul : Haul) : Pull → Haul
  | .lexeme =>
    { haul with
      lexemes := haul.lexemes ++ [haul.stream.scan.1.lexeme]
      stream := haul.stream.scan.2 }
  | .fault =>
    { haul with
      faults := haul.faults ++ haul.stream.takeFault.1.toList
      stream := haul.stream.takeFault.2 }

def ofPulls (stream : Stream) (pulls : List Pull) : Haul := pulls.foldl pull ⟨[], [], stream⟩

/-- So many lexemes were given, the rest is ahead, and a fault is given, met or pending. -/
structure Accounts (lexemes : List Lexeme) (fault : Option Fault) (count : Nat) (haul : Haul) :
    Prop where
  passes : haul.lexemes = passed lexemes count
  ahead : haul.stream.ahead = lexemes.drop count
  faults : haul.faults ++ haul.stream.met.toList ++ haul.stream.pending.toList = fault.toList
  looked : lexemes.length < count → haul.stream.pending = none

variable {lexemes : List Lexeme} {fault : Option Fault} {count : Nat} {haul : Haul}

theorem Accounts.start (source : String) (input : Input) :
    Accounts (Lexeme.lexemesOf input.chars) input.fault 0 ⟨[], [], .ofInput source input⟩ where
  passes := rfl
  ahead := rfl
  faults := rfl
  looked := by simp

theorem scan_met {stream : Stream} (reached : stream.reachesEnd = true) :
    stream.scan.2.met = (stream.pending <|> stream.met) := by
  simp [Stream.scan, reached, Stream.meet]

theorem scan_pending {stream : Stream} (reached : stream.reachesEnd = true) :
    stream.scan.2.pending = none := by
  simp [Stream.scan, reached, Stream.meet]

theorem toList_orElse {met pending : Option Fault} {given : List Fault}
    (all : given ++ met.toList ++ pending.toList = fault.toList) :
    (pending <|> met).toList = met.toList ++ pending.toList := by
  have size := congrArg List.length all
  cases met <;> cases pending <;> cases fault <;> simp at size ⊢

theorem Accounts.pull_lexeme (accounts : haul.Accounts lexemes fault count) :
    (haul.pull .lexeme).Accounts lexemes fault (count + 1) where
  passes := by
    have next : haul.stream.next = lexemeAt lexemes count := by
      rw [Stream.next, accounts.ahead, lexemeAt_eq_head]
    rw [passed_succ, ← accounts.passes, ← next]
    rfl
  ahead := by
    change haul.stream.scan.2.ahead = _
    rw [Stream.scan_ahead, accounts.ahead, List.tail_drop]
  faults := by
    have all := accounts.faults
    change haul.faults ++ haul.stream.scan.2.met.toList ++ haul.stream.scan.2.pending.toList = _
    -- A fault that was pending is met at the end, and stays what it is before.
    by_cases reached : haul.stream.reachesEnd = true
    · rw [scan_met reached, scan_pending reached, toList_orElse all]
      simpa using all
    · have unmoved : haul.stream.scan.2.met = haul.stream.met ∧
          haul.stream.scan.2.pending = haul.stream.pending := by simp [Stream.scan, reached]
      rw [unmoved.1, unmoved.2, all]
  looked enough := by
    refine scan_pending ?_
    have past : lexemes.length ≤ count := Nat.le_of_lt_succ enough
    simp [Stream.reachesEnd, accounts.ahead, List.drop_eq_nil_of_le past]

theorem Accounts.pull_fault (accounts : haul.Accounts lexemes fault count) :
    (haul.pull .fault).Accounts lexemes fault count where
  passes := accounts.passes
  ahead := accounts.ahead
  faults := by simpa [pull, Stream.takeFault] using accounts.faults
  looked := accounts.looked

theorem Accounts.foldl (accounts : haul.Accounts lexemes fault count) (pulls : List Pull) :
    (pulls.foldl pull haul).Accounts lexemes fault (count + pulls.count .lexeme) := by
  induction pulls generalizing haul count with
  | nil => exact accounts
  | cons asked pulls ih =>
    cases asked with
    | lexeme =>
      rw [List.count_cons_self, Nat.add_comm _ 1, ← Nat.add_assoc]
      exact ih accounts.pull_lexeme
    | fault =>
      rw [List.count_cons_of_ne (by decide)]
      exact ih accounts.pull_fault

theorem ofPulls_accounts (source : String) (input : Input) (pulls : List Pull) :
    (ofPulls (.ofInput source input) pulls).Accounts (Lexeme.lexemesOf input.chars) input.fault
      (pulls.count .lexeme) := by
  have accounts := (Accounts.start source input).foldl pulls
  rwa [Nat.zero_add] at accounts

/-- No fault is given twice. -/
theorem Accounts.faults_starts (accounts : haul.Accounts lexemes fault count) :
    haul.faults <+: fault.toList := by
  rw [← accounts.faults, List.append_assoc]
  exact List.prefix_append _ _

theorem foldl_faults_starts (haul : Haul) (pulls : List Pull) :
    haul.faults <+: (pulls.foldl pull haul).faults := by
  induction pulls generalizing haul with
  | nil => exact List.prefix_rfl
  | cons asked pulls ih =>
    refine List.IsPrefix.trans ?_ (ih _)
    cases asked with
    | lexeme => exact List.prefix_rfl
    | fault => exact List.prefix_append _ _

theorem faults_of_asked (source : String) (input : Input) {before after : List Pull}
    (enough : (Lexeme.lexemesOf input.chars).length < before.count .lexeme) :
    (ofPulls (.ofInput source input) (before ++ .fault :: after)).faults = input.fault.toList := by
  have accounts := (ofPulls_accounts source input before).pull_fault
  generalize same : (ofPulls (.ofInput source input) before).pull .fault = asked at accounts
  -- Neither is the fault pending any more, nor is it met and not given.
  have given : asked.faults = input.fault.toList := by
    have all := accounts.faults
    rw [accounts.looked enough, ← same] at all
    rw [← same]
    simpa [pull, Stream.takeFault] using all
  have further := foldl_faults_starts asked after
  have most := (accounts.foldl after).faults_starts
  rw [given] at further
  rw [ofPulls, List.foldl_append, List.foldl_cons]
  change (List.foldl pull ((ofPulls (.ofInput source input) before).pull .fault) after).faults = _
  rw [same]
  exact most.eq_of_length_le further.length_le

end Haul

/-- A stream decodes the longest text that its bytes start with, gives the lexemes of this text and
then the end for ever, and gives the fault of its reader or of its bytes once. -/
theorem pulls_decode (source : String) (input : Input) :
    Text.Utf8.encode input.chars <+: input.bytes ∧
      (∀ text, Text.Utf8.encode text <+: input.bytes → text <+: input.chars) ∧
      (input.fault = none ↔ input.failure = none ∧ input.IsText) ∧
      (input.failure = none → ¬ input.IsText →
        input.fault = some ⟨.invalidData, "the input is not valid UTF-8"⟩) ∧
      (∀ reason, input.failure = some reason →
        input.IsText ∨ Text.Utf8.EndsInside input.bytes → input.fault = some reason) ∧
      ∃ lexemes, (∀ others, Lexeme.Divides input.chars others ↔ others = lexemes) ∧
        (∀ lexeme ∈ lexemes, lexeme.token ≠ .eof) ∧
        ∀ pulls,
          (Haul.ofPulls (.ofInput source input) pulls).lexemes =
            passed lexemes (pulls.count .lexeme) ∧
          (Haul.ofPulls (.ofInput source input) pulls).faults <+: input.fault.toList ∧
          ∀ before after, pulls = before ++ .fault :: after →
            lexemes.length < before.count .lexeme →
            (Haul.ofPulls (.ofInput source input) pulls).faults = input.fault.toList := by
  refine ⟨Text.Utf8.encode_chars_starts _, fun text => Text.Utf8.prefix_chars,
    Input.fault_eq_none_iff, Input.fault_of_not_isText, fun reason => Input.fault_of_failure,
    Lexeme.lexemesOf input.chars, fun others => Lexeme.divides_iff.trans eq_comm,
    fun lexeme member => (Lexeme.lexemesOf_formed _ lexeme member).ne_eof, fun pulls => ?_⟩
  have accounts := Haul.ofPulls_accounts source input pulls
  refine ⟨accounts.passes, accounts.faults_starts, ?_⟩
  rintro before after rfl enough
  exact Haul.faults_of_asked source input enough

end OwlFunctional
