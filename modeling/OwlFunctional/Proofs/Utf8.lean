import OwlFunctional.Input

/-! Decoding inverts the encoding of texts as bytes.

Bytes are decoded up to where no character can be decoded from them, and what is found is the text
that the bytes before encode. So they are decoded to their end exactly if they encode a text.
-/

set_option autoImplicit false

namespace OwlFunctional

namespace Text.Utf8

def encode (chars : List Char) : List UInt8 := chars.flatMap String.utf8EncodeChar

@[simp] theorem encode_nil : encode [] = [] := rfl

@[simp] theorem encode_cons (c : Char) (chars : List Char) :
    encode (c :: chars) = String.utf8EncodeChar c ++ encode chars := List.flatMap_cons

theorem toList_loop (bytes : ByteArray) (index : Nat) (read : List UInt8) :
    ByteArray.toList.loop bytes index read = read.reverse ++ bytes.data.toList.drop index := by
  fun_induction ByteArray.toList.loop bytes index read with
  | case1 index read inside ih =>
    have inside : index < bytes.data.toList.length := by simpa using inside
    rw [ih, List.drop_eq_getElem_cons inside]
    simp [ByteArray.get!, getElem!_pos bytes.data index (by simpa using inside)]
  | case2 index read outside =>
    have outside : bytes.data.toList.length ≤ index := by simpa using outside
    simp [List.drop_eq_nil_of_le outside]

theorem toList_toUTF8 (text : String) : text.toUTF8.toList = encode text.toList := by
  rw [String.toUTF8_eq_toByteArray, ← String.utf8Encode_toList, ByteArray.toList, toList_loop,
    List.utf8Encode, List.toList_data_toByteArray]
  rfl

theorem width?_of_toNat {first : UInt8} :
    width? first =
      if first.toNat < 0x80 then some 1
      else if first.toNat < 0xC0 then none
      else if first.toNat < 0xE0 then some 2
      else if first.toNat < 0xF0 then some 3
      else if first.toNat < 0xF8 then some 4
      else none := by
  simp [width?, UInt8.lt_iff_toNat_lt]

theorem width?_iff {first : UInt8} {width : Nat} : width? first = some width ↔
    first.toNat < 0x80 ∧ width = 1 ∨ 0xC0 ≤ first.toNat ∧ first.toNat < 0xE0 ∧ width = 2 ∨
      0xE0 ≤ first.toNat ∧ first.toNat < 0xF0 ∧ width = 3 ∨
      0xF0 ≤ first.toNat ∧ first.toNat < 0xF8 ∧ width = 4 := by
  rw [width?_of_toNat]
  repeat' split
  all_goals simp only [Option.some.injEq, reduceCtorEq, false_iff]; omega

theorem continuation?_iff {byte : UInt8} {bits : Nat} : continuation? byte = some bits ↔
    byte.toNat = bits + 0x80 ∧ bits < 0x40 := by
  simp only [continuation?, UInt8.lt_iff_toNat_lt, UInt8.le_iff_toNat_le, UInt8.reduceToNat]
  split
  · simp only [Option.some.injEq]
    omega
  · simp only [reduceCtorEq, false_iff]
    omega

theorem ofNat_eq_char_iff {point : Nat} (valid : point.isValidChar) {c : Char} :
    Char.ofNat point = c ↔ c.toNat = point := by
  constructor
  · rintro rfl
    rw [Char.ofNat, dif_pos valid]
    rfl
  · rintro rfl
    exact Char.ofNat_toNat c

theorem char?_iff {least point : Nat} {c : Char} : char? least point = some c ↔
    c.toNat = point ∧ least ≤ point := by
  unfold char?
  split
  · next fits => rw [Option.some.injEq, ofNat_eq_char_iff fits.2, and_iff_left fits.1]
  · next misfit =>
    simp only [reduceCtorEq, false_iff]
    rintro ⟨rfl, enough⟩
    exact misfit ⟨enough, c.valid⟩

theorem toNat_lt (c : Char) : c.toNat < 0x110000 := by
  have valid : c.toNat.isValidChar := c.valid
  unfold Nat.isValidChar at valid
  omega

theorem ofNat_eq_iff {value : Nat} {byte : UInt8} (small : value < 256) :
    UInt8.ofNat value = byte ↔ value = byte.toNat := by
  rw [← UInt8.toNat_inj, UInt8.toNat_ofNat', Nat.mod_eq_of_lt small]

/-! ## One character -/

theorem encodeChar_eq (c : Char) : String.utf8EncodeChar c =
    if c.toNat ≤ 0x7f then [.ofNat c.toNat]
    else if c.toNat ≤ 0x7ff then
      [.ofNat (c.toNat / 64 % 0x20 + 0xc0), .ofNat (c.toNat % 0x40 + 0x80)]
    else if c.toNat ≤ 0xffff then
      [.ofNat (c.toNat / 4096 % 0x10 + 0xe0), .ofNat (c.toNat / 64 % 0x40 + 0x80),
        .ofNat (c.toNat % 0x40 + 0x80)]
    else
      [.ofNat (c.toNat / 262144 % 0x08 + 0xf0), .ofNat (c.toNat / 4096 % 0x40 + 0x80),
        .ofNat (c.toNat / 64 % 0x40 + 0x80), .ofNat (c.toNat % 0x40 + 0x80)] := rfl

theorem encodeChar_one {c : Char} {a : UInt8} : String.utf8EncodeChar c = [a] ↔
    width? a = some 1 ∧ Char.ofNat a.toNat = c := by
  have bound := toNat_lt c
  have point : width? a = some 1 ∧ Char.ofNat a.toNat = c ↔
      a.toNat < 0x80 ∧ c.toNat = a.toNat := by
    have width : width? a = some 1 ↔ a.toNat < 0x80 := by
      rw [width?_iff]
      omega
    rw [width]
    refine and_congr_right fun small => ofNat_eq_char_iff ?_
    unfold Nat.isValidChar
    omega
  rw [point, encodeChar_eq]
  split
  · simp only [List.cons.injEq, and_true]
    rw [ofNat_eq_iff (by omega)]
    omega
  · repeat' split
    all_goals simp only [List.cons.injEq, reduceCtorEq, and_false, false_iff]; omega

theorem encodeChar_two {c : Char} {a b : UInt8} : String.utf8EncodeChar c = [a, b] ↔
    width? a = some 2 ∧ char2? a b = some c := by
  have bound := toNat_lt c
  simp only [char2?, Option.bind_eq_bind, Option.bind_eq_some_iff, continuation?_iff, char?_iff,
    width?_iff, encodeChar_eq]
  split
  · simp only [List.cons.injEq, reduceCtorEq, and_false, false_iff]
    omega
  · split
    · simp only [List.cons.injEq, and_true]
      rw [ofNat_eq_iff (by omega), ofNat_eq_iff (by omega)]
      constructor
      · intro same
        exact ⟨by omega, c.toNat % 0x40, by omega⟩
      · omega
    · split
      · simp only [List.cons.injEq, reduceCtorEq, and_false, false_iff]
        omega
      · simp only [List.cons.injEq, reduceCtorEq, and_false, false_iff]
        omega

theorem encodeChar_three {c : Char} {a b d : UInt8} : String.utf8EncodeChar c = [a, b, d] ↔
    width? a = some 3 ∧ char3? a b d = some c := by
  have bound := toNat_lt c
  simp only [char3?, Option.bind_eq_bind, Option.bind_eq_some_iff, continuation?_iff, char?_iff,
    width?_iff, encodeChar_eq]
  split
  · simp only [List.cons.injEq, reduceCtorEq, and_false, false_iff]
    omega
  · split
    · simp only [List.cons.injEq, reduceCtorEq, and_false, false_iff]
      omega
    · split
      · simp only [List.cons.injEq, and_true]
        rw [ofNat_eq_iff (by omega), ofNat_eq_iff (by omega), ofNat_eq_iff (by omega)]
        constructor
        · intro same
          exact ⟨by omega, c.toNat / 64 % 0x40, by omega, c.toNat % 0x40, by omega⟩
        · omega
      · simp only [List.cons.injEq, reduceCtorEq, and_false, false_iff]
        omega

theorem encodeChar_four {c : Char} {a b d e : UInt8} : String.utf8EncodeChar c = [a, b, d, e] ↔
    width? a = some 4 ∧ char4? a b d e = some c := by
  have bound := toNat_lt c
  simp only [char4?, Option.bind_eq_bind, Option.bind_eq_some_iff, continuation?_iff, char?_iff,
    width?_iff, encodeChar_eq]
  split
  · simp only [List.cons.injEq, reduceCtorEq, and_false, false_iff]
    omega
  · split
    · simp only [List.cons.injEq, reduceCtorEq, and_false, false_iff]
      omega
    · split
      · simp only [List.cons.injEq, reduceCtorEq, and_false, false_iff]
        omega
      · simp only [List.cons.injEq, and_true]
        rw [ofNat_eq_iff (by omega), ofNat_eq_iff (by omega), ofNat_eq_iff (by omega),
          ofNat_eq_iff (by omega)]
        constructor
        · intro same
          exact ⟨by omega, c.toNat / 4096 % 0x40, by omega, c.toNat / 64 % 0x40, by omega,
            c.toNat % 0x40, by omega⟩
        · omega

theorem encodeChar_cases (c : Char) :
    (∃ a, String.utf8EncodeChar c = [a]) ∨ (∃ a b, String.utf8EncodeChar c = [a, b]) ∨
      (∃ a b d, String.utf8EncodeChar c = [a, b, d]) ∨
      ∃ a b d e, String.utf8EncodeChar c = [a, b, d, e] := by
  rw [encodeChar_eq]
  split
  · exact .inl ⟨_, rfl⟩
  · split
    · exact .inr (.inl ⟨_, _, rfl⟩)
    · split
      · exact .inr (.inr (.inl ⟨_, _, _, rfl⟩))
      · exact .inr (.inr (.inr ⟨_, _, _, _, rfl⟩))

/-! ## Texts -/

theorem decodeAfter_char (c : Char) (read : List Char) (rest : List UInt8) :
    decodeAfter read (String.utf8EncodeChar c ++ rest) = decodeAfter (c :: read) rest := by
  rcases encodeChar_cases c with ⟨a, bytes⟩ | ⟨a, b, bytes⟩ | ⟨a, b, d, bytes⟩ | ⟨a, b, d, e, bytes⟩
  · obtain ⟨width, found⟩ := encodeChar_one.mp bytes
    rw [bytes]
    simp only [List.cons_append, List.nil_append]
    rw [decodeAfter.eq_def]
    simp only [width, found]
  · obtain ⟨width, found⟩ := encodeChar_two.mp bytes
    rw [bytes]
    simp only [List.cons_append, List.nil_append]
    rw [decodeAfter.eq_def]
    simp only [width, found]
  · obtain ⟨width, found⟩ := encodeChar_three.mp bytes
    rw [bytes]
    simp only [List.cons_append, List.nil_append]
    rw [decodeAfter.eq_def]
    simp only [width, found]
  · obtain ⟨width, found⟩ := encodeChar_four.mp bytes
    rw [bytes]
    simp only [List.cons_append, List.nil_append]
    rw [decodeAfter.eq_def]
    simp only [width, found]

theorem decodeAfter_encode_append (chars read : List Char) (rest : List UInt8) :
    decodeAfter read (encode chars ++ rest) = decodeAfter (chars.reverse ++ read) rest := by
  induction chars generalizing read with
  | nil => rfl
  | cons c chars ih => rw [encode_cons, List.append_assoc, decodeAfter_char, ih]; simp

theorem decodeAfter_encode (chars read : List Char) :
    decodeAfter read (encode chars) = ⟨read.reverse ++ chars, .complete⟩ := by
  rw [← List.append_nil (encode chars), decodeAfter_encode_append]
  simp [decodeAfter]

/-! ## Where decoding stops -/

/-- The bytes promise more of a character than there is. -/
def CutShort (bytes : List UInt8) : Prop :=
  ∃ width ∈ bytes.head?.bind width?, bytes.length < width

/-- Bytes that no character can be decoded from, with the reason. -/
inductive Stops : Ending → List UInt8 → Prop where
  | complete : Stops .complete []
  | cut {bytes : List UInt8} : CutShort bytes → Stops .cut bytes
  | invalid {bytes : List UInt8} : bytes ≠ [] → ¬ CutShort bytes →
      (∀ c, ¬ String.utf8EncodeChar c <+: bytes) → Stops .invalid bytes

theorem starts_width {c : Char} {bytes : List UInt8} (starts : String.utf8EncodeChar c <+: bytes) :
    (String.utf8EncodeChar c).length ∈ bytes.head?.bind width? := by
  obtain ⟨rest, rfl⟩ := starts
  rcases encodeChar_cases c with ⟨a, same⟩ | ⟨a, b, same⟩ | ⟨a, b, d, same⟩ | ⟨a, b, d, e, same⟩
  · simpa [same] using (encodeChar_one.mp same).1
  · simpa [same] using (encodeChar_two.mp same).1
  · simpa [same] using (encodeChar_three.mp same).1
  · simpa [same] using (encodeChar_four.mp same).1

/-- The bytes of a character are as many of those at the start as the first one promises. -/
theorem take_of_starts {c : Char} {first : UInt8} {rest : List UInt8} {width : Nat}
    (starts : String.utf8EncodeChar c <+: first :: rest) (promised : width? first = some width) :
    String.utf8EncodeChar c = (first :: rest).take width := by
  obtain rfl : width = (String.utf8EncodeChar c).length :=
    Option.some.inj (promised.symm.trans (starts_width starts))
  exact List.prefix_iff_eq_take.mp starts

theorem cutShort_cons {first : UInt8} {rest : List UInt8} :
    CutShort (first :: rest) ↔ ∃ width, width? first = some width ∧ rest.length + 1 < width := by
  simp [CutShort]

theorem CutShort.not_starts {bytes : List UInt8} (short : CutShort bytes) (c : Char) :
    ¬ String.utf8EncodeChar c <+: bytes := by
  intro starts
  obtain ⟨width, promised, less⟩ := short
  obtain rfl : (String.utf8EncodeChar c).length = width :=
    Option.some.inj ((starts_width starts).symm.trans promised)
  exact absurd starts.length_le (Nat.not_le.mpr less)

theorem Stops.not_starts {ending : Ending} {bytes : List UInt8} (stops : Stops ending bytes)
    (c : Char) : ¬ String.utf8EncodeChar c <+: bytes := by
  cases stops with
  | complete =>
    intro starts
    rcases encodeChar_cases c with ⟨a, same⟩ | ⟨a, b, same⟩ | ⟨a, b, d, same⟩ | ⟨a, b, d, e, same⟩
      <;> simp [same] at starts
  | cut short => exact short.not_starts c
  | invalid _ _ strange => exact strange c

theorem Stops.unique {ending other : Ending} {bytes : List UInt8} (stops : Stops ending bytes)
    (again : Stops other bytes) : ending = other := by
  cases stops with
  | complete =>
    cases again with
    | complete => rfl
    | cut short => simp [CutShort] at short
    | invalid nonempty => exact absurd rfl nonempty
  | cut short =>
    cases again with
    | complete => simp [CutShort] at short
    | cut => rfl
    | invalid _ whole => exact absurd short whole
  | invalid nonempty whole =>
    cases again with
    | complete => exact absurd rfl nonempty
    | cut short => exact absurd short whole
    | invalid => rfl

theorem stops_of_width {first : UInt8} {rest : List UInt8} {width : Nat}
    (promised : width? first = some width) (enough : width ≤ rest.length + 1)
    (strange : ∀ c, String.utf8EncodeChar c ≠ (first :: rest).take width) :
    Stops .invalid (first :: rest) := by
  refine .invalid (List.cons_ne_nil _ _) ?_
    fun c starts => strange c (take_of_starts starts promised)
  rw [cutShort_cons]
  rintro ⟨other, also, less⟩
  obtain rfl : width = other := Option.some.inj (promised.symm.trans also)
  exact absurd enough (Nat.not_le.mpr less)

def Decoded.Leaves (decoded : Decoded) (read : List Char) (bytes : List UInt8) : Prop :=
  ∃ found rest, decoded.chars = read.reverse ++ found ∧ bytes = encode found ++ rest ∧
    Stops decoded.ending rest

theorem leaves_all {read : List Char} {ending : Ending} {bytes : List UInt8}
    (stops : Stops ending bytes) : Decoded.Leaves ⟨read.reverse, ending⟩ read bytes :=
  ⟨[], bytes, by simp, rfl, stops⟩

theorem Decoded.Leaves.cons {decoded : Decoded} {read : List Char} {c : Char}
    {bytes rest : List UInt8} (leaves : decoded.Leaves (c :: read) rest)
    (written : String.utf8EncodeChar c = bytes) : decoded.Leaves read (bytes ++ rest) := by
  obtain ⟨found, left, chars, rfl, stops⟩ := leaves
  exact ⟨c :: found, left, by simp [chars], by simp [written], stops⟩

theorem four_of_width {first : UInt8} {width : Nat} (promised : width? first = some width)
    (notOne : width ≠ 1) (notTwo : width ≠ 2) (notThree : width ≠ 3) : width = 4 := by
  have sizes := width?_iff.mp promised
  omega

theorem decodeAfter_leaves (read : List Char) (bytes : List UInt8) :
    (decodeAfter read bytes).Leaves read bytes := by
  -- For each width the bytes are a character, or none although enough, or too few.
  fun_induction decodeAfter read bytes with
  | case1 read => exact leaves_all .complete
  | case2 read a rest width ih => exact ih.cons (encodeChar_one.mpr ⟨width, rfl⟩)
  | case3 read a width b rest c found ih => exact ih.cons (encodeChar_two.mpr ⟨width, found⟩)
  | case4 read a width b rest missing =>
    exact leaves_all (stops_of_width width (by simp) fun c same => by
      simp [(encodeChar_two.mp same).2] at missing)
  | case5 read a rest width short =>
    refine leaves_all (.cut (cutShort_cons.mpr ⟨2, width, ?_⟩))
    match rest with
    | [] => decide
    | b :: rest => exact (short b rest rfl).elim
  | case6 read a width b d rest c found ih => exact ih.cons (encodeChar_three.mpr ⟨width, found⟩)
  | case7 read a width b d rest missing =>
    exact leaves_all (stops_of_width width (by simp) fun c same => by
      simp [(encodeChar_three.mp same).2] at missing)
  | case8 read a rest width short =>
    refine leaves_all (.cut (cutShort_cons.mpr ⟨3, width, ?_⟩))
    match rest with
    | [] | [_] => simp
    | b :: d :: rest => exact (short b d rest rfl).elim
  | case9 read a size notOne notTwo notThree width b d e rest c found ih =>
    obtain rfl := four_of_width width notOne notTwo notThree
    exact ih.cons (encodeChar_four.mpr ⟨width, found⟩)
  | case10 read a size notOne notTwo notThree width b d e rest missing =>
    obtain rfl := four_of_width width notOne notTwo notThree
    exact leaves_all (stops_of_width width (by simp) fun c same => by
      simp [(encodeChar_four.mp same).2] at missing)
  | case11 read a rest size notOne notTwo notThree width short =>
    obtain rfl := four_of_width width notOne notTwo notThree
    refine leaves_all (.cut (cutShort_cons.mpr ⟨4, width, ?_⟩))
    match rest with
    | [] | [_] | [_, _] => simp
    | b :: d :: e :: rest => exact (short b d e rest rfl).elim
  | case12 read a rest width =>
    refine leaves_all (.invalid (List.cons_ne_nil _ _) ?_ fun c starts => ?_)
    · simp [cutShort_cons, width]
    · simpa [width] using starts_width starts

theorem Decoded.Leaves.of_stops {decoded : Decoded} {read : List Char} {ending : Ending}
    {bytes : List UInt8} (leaves : decoded.Leaves read bytes) (stops : Stops ending bytes) :
    decoded = ⟨read.reverse, ending⟩ := by
  obtain ⟨found, rest, chars, same, reason⟩ := leaves
  cases found with
  | nil =>
    obtain rfl : bytes = rest := same
    rw [List.append_nil] at chars
    rw [← chars, stops.unique reason]
  | cons c found =>
    rw [encode_cons, List.append_assoc] at same
    exact absurd ⟨_, same.symm⟩ (stops.not_starts c)

/-- A text is decoded, and the decoding ends there, just where the bytes are those of the text and
then bytes of no character. -/
theorem decode_eq_iff {bytes : List UInt8} {chars : List Char} {ending : Ending} :
    decode bytes = ⟨chars, ending⟩ ↔ ∃ rest, bytes = encode chars ++ rest ∧ Stops ending rest := by
  constructor
  · intro decoded
    obtain ⟨found, rest, same, whole, stops⟩ := decodeAfter_leaves [] bytes
    change (decode bytes).chars = found at same
    change Stops (decode bytes).ending rest at stops
    rw [decoded] at same stops
    obtain rfl : chars = found := same
    exact ⟨rest, whole, stops⟩
  · rintro ⟨rest, rfl, stops⟩
    rw [decode, decodeAfter_encode_append, (decodeAfter_leaves _ rest).of_stops stops]
    simp

theorem decode_stops (bytes : List UInt8) :
    ∃ rest, bytes = encode (decode bytes).chars ++ rest ∧ Stops (decode bytes).ending rest :=
  decode_eq_iff.mp rfl

theorem encode_of_decode {bytes : List UInt8} (complete : (decode bytes).ending = .complete) :
    bytes = encode (decode bytes).chars := by
  obtain ⟨rest, same, stops⟩ := decode_stops bytes
  rw [complete] at stops
  cases stops
  simpa using same

theorem decode_complete_iff {bytes : List UInt8} :
    (decode bytes).ending = .complete ↔ ∃ text : String, bytes = text.toUTF8.toList := by
  constructor
  · intro complete
    refine ⟨.ofList (decode bytes).chars, ?_⟩
    rw [toList_toUTF8, String.toList_ofList]
    exact encode_of_decode complete
  · rintro ⟨text, rfl⟩
    rw [toList_toUTF8, decode, decodeAfter_encode]

end Text.Utf8

namespace Input

def IsText (input : Input) : Prop := ∃ text : String, input.bytes = text.toUTF8.toList

theorem fault_eq_none_iff {input : Input} :
    input.fault = none ↔ input.failure = none ∧ input.IsText := by
  unfold fault IsText
  rw [← Text.Utf8.decode_complete_iff]
  split <;> simp [*]

/-- A fault is the one of the reader, or tells that the bytes are not those of a text. -/
theorem fault_cases {input : Input} {fault : Fault} (found : input.fault = some fault) :
    input.failure = some fault ∨ fault = .notUtf8 ∧ ¬ input.IsText := by
  unfold Input.fault at found
  unfold IsText
  rw [← Text.Utf8.decode_complete_iff]
  split at found
  · exact .inl found
  · next cut =>
    cases failure : input.failure with
    | none =>
      rw [failure] at found
      exact .inr ⟨(Option.some.inj found).symm, by simp [cut]⟩
    | some reason =>
      rw [failure] at found
      exact .inl found
  · next invalid => exact .inr ⟨(Option.some.inj found).symm, by simp [invalid]⟩

theorem chars_ofString (text : String) : (ofString text).chars = text.toList := by
  rw [chars, ofString, Text.Utf8.toList_toUTF8, Text.Utf8.decode, Text.Utf8.decodeAfter_encode]
  rfl

theorem fault_ofString (text : String) : (ofString text).fault = none :=
  fault_eq_none_iff.mpr ⟨rfl, text, rfl⟩

theorem toUTF8_chars {input : Input} (sound : input.IsText) :
    input.bytes = (String.ofList input.chars).toUTF8.toList := by
  rw [Text.Utf8.toList_toUTF8, String.toList_ofList]
  exact Text.Utf8.encode_of_decode (Text.Utf8.decode_complete_iff.mpr sound)

end Input

end OwlFunctional
