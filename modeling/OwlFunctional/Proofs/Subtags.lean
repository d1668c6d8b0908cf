import OwlFunctional.LanguageTag
import OwlFunctional.Proofs.Run

/-! The subtags of a well-formed language tag.

Whatever parts a tag has, its first subtag consists of letters, and the others are of one to eight
letters and digits each. Nothing more is needed to tell how a tag falls into lexemes.
-/

set_option autoImplicit false

namespace OwlFunctional.LanguageTag

def Stem (subtag : List Char) : Prop := subtag ≠ [] ∧ subtag.all Char.isAlpha = true

def Piece (subtag : List Char) : Prop :=
  subtag ≠ [] ∧ subtag.all Char.isAlphanum = true ∧ subtag.length ≤ maxSize

def Parted : List (List Char) → Prop
  | [] => False
  | first :: others => Stem first ∧ ∀ subtag ∈ others, Piece subtag

instance (subtag : List Char) : Decidable (Stem subtag) := inferInstanceAs (Decidable (_ ∧ _))

instance (subtag : List Char) : Decidable (Piece subtag) := inferInstanceAs (Decidable (_ ∧ _))

instance : DecidablePred Parted
  | [] => isFalse id
  | _ :: _ => inferInstanceAs (Decidable (_ ∧ _))

theorem isAlphanum_of_all {test : Char → Bool} {subtag : List Char}
    (narrower : ∀ c, test c = true → c.isAlphanum = true) (all : subtag.all test = true) :
    subtag.all Char.isAlphanum = true :=
  List.all_eq_true.mpr fun c member => narrower c (List.all_eq_true.mp all c member)

theorem isAlphanum_of_isAlpha (c : Char) (letter : c.isAlpha = true) : c.isAlphanum = true := by
  simp [Char.isAlphanum, letter]

theorem isAlphanum_of_isDigit (c : Char) (digit : c.isDigit = true) : c.isAlphanum = true := by
  simp [Char.isAlphanum, digit]

/-! ## Between the hyphens -/

def joined : List (List Char) → List Char
  | [] => []
  | first :: others => first ++ others.flatMap ('-' :: ·)

theorem split_ne_nil (text : List Char) : split text ≠ [] := by
  fun_cases split text <;> simp

theorem joined_split (text : List Char) : joined (split text) = text := by
  fun_induction split text with
  | case1 => rfl
  | case2 rest first others same ih =>
    rw [same] at ih
    simpa [joined] using ih
  | case3 c rest first others same other ih =>
    rw [same] at ih
    simpa [joined] using ih
  | case4 c rest none => exact absurd none (split_ne_nil rest)

/-- Hyphens are split at in the same places where some characters are changed to others. -/
theorem split_map {change : Char → Char} (hyphen : ∀ c, change c = '-' ↔ c = '-')
    (text : List Char) : split (text.map change) = (split text).map (List.map change) := by
  induction text with
  | nil => rfl
  | cons c rest ih =>
    rw [List.map_cons, split, ih, split]
    cases same : split rest with
    | nil => exact absurd same (split_ne_nil rest)
    | cons first others => by_cases here : c = '-' <;> simp [hyphen, here]

/-! ## Registered tags -/

theorem toLower_eq_hyphen_iff (c : Char) : c.toLower = '-' ↔ c = '-' := by
  constructor
  · intro lower
    unfold Char.toLower at lower
    split at lower
    · next upper =>
      have value : (c.val + 32).toNat = 45 := congrArg Char.toNat lower
      have bounds : 65 ≤ c.toNat ∧ c.toNat ≤ 90 := upper
      rw [UInt32.toNat_add] at value
      change (c.toNat + 32) % 4294967296 = 45 at value
      omega
    · exact lower
  · rintro rfl
    rfl

theorem isAlpha_of_toLower {c : Char} (lower : c.toLower.isAlpha = true) : c.isAlpha = true := by
  unfold Char.toLower at lower
  split at lower
  · next upper =>
    have isUpper : c.isUpper = true := decide_eq_true upper
    exact Bool.or_eq_true_iff.mpr (.inl isUpper)
  · exact lower

/-- Registered tags have no digits, and no long subtags. -/
theorem registered_subtags : ∀ tag ∈ registered, ∀ subtag ∈ split tag.toList,
    Stem subtag ∧ subtag.length ≤ maxSize := by decide

theorem parted_of_registered {tag : List Char}
    (listed : registered.contains (.ofList (tag.map Char.toLower)) = true) :
    Parted (split tag) := by
  have subtags : ∀ subtag ∈ split tag, Stem subtag ∧ subtag.length ≤ maxSize := by
    intro subtag member
    have found := registered_subtags _ (List.contains_iff_mem.mp listed) (subtag.map Char.toLower)
    rw [String.toList_ofList, split_map toLower_eq_hyphen_iff] at found
    obtain ⟨⟨nonempty, letters⟩, short⟩ := found (List.mem_map_of_mem member)
    refine ⟨⟨by simpa using nonempty, List.all_eq_true.mpr fun c member => ?_⟩,
      by simpa using short⟩
    exact isAlpha_of_toLower (List.all_eq_true.mp letters _ (List.mem_map_of_mem member))
  cases same : split tag with
  | nil => exact absurd same (split_ne_nil tag)
  | cons first others =>
    rw [same] at subtags
    refine ⟨(subtags first List.mem_cons_self).1, fun subtag member => ?_⟩
    obtain ⟨⟨nonempty, letters⟩, short⟩ := subtags subtag (List.mem_cons_of_mem _ member)
    exact ⟨nonempty, isAlphanum_of_all isAlphanum_of_isAlpha letters, short⟩

/-! ## Tags that are checked part by part -/

theorem length_le_size (subtag : List Char) : subtag.length ≤ size subtag := by
  have counted (bytes : Nat) :
      bytes + subtag.length ≤ subtag.foldl (fun bytes c => bytes + c.utf8Size) bytes := by
    induction subtag generalizing bytes with
    | nil => simp
    | cons c rest ih =>
      have more := ih (bytes + c.utf8Size)
      have one := c.utf8Size_pos
      rw [List.foldl_cons, List.length_cons]
      omega
  simpa [size] using counted 0

theorem checkSize_ok {subtag : List Char} (passed : checkSize subtag = .ok ()) :
    subtag ≠ [] ∧ subtag.length ≤ maxSize := by
  unfold checkSize at passed
  split at passed
  · simp at passed
  · next nonempty =>
    split at passed
    · simp at passed
    · next short =>
      exact ⟨by simpa using nonempty,
        Nat.le_trans (length_le_size subtag) (Nat.le_of_not_lt short)⟩

theorem isVariant_plain {subtag : List Char} (variant : isVariant subtag = true) :
    subtag.all Char.isAlphanum = true := (Bool.and_eq_true_iff.mp variant).1

theorem plainPart_ok {part next : Part} {subtag : List Char}
    (passed : plainPart part subtag = .ok next) : subtag.all Char.isAlphanum = true := by
  have letters (all : subtag.all Char.isAlpha = true) := isAlphanum_of_all isAlphanum_of_isAlpha all
  have digits (all : subtag.all Char.isDigit = true) := isAlphanum_of_all isAlphanum_of_isDigit all
  unfold plainPart at passed
  dsimp only at passed
  split at passed
  · next three => exact letters (Bool.and_eq_true_iff.mp three).2
  · split at passed
    · next script =>
      simp only [Bool.and_eq_true] at script
      exact letters script.2.2
    · split at passed
      · next region =>
        simp only [Bool.and_eq_true, Bool.or_eq_true] at region
        exact region.2.elim (fun two => letters two.2) fun three => digits three.2
      · split at passed
        · next variant => exact isVariant_plain (Bool.and_eq_true_iff.mp variant).2
        · simp at passed

theorem nextPart_ok {part next : Part} {subtag : List Char}
    (passed : nextPart part subtag = .ok next) : Piece subtag := by
  obtain ⟨_, sized, passed⟩ := exists_of_bind_ok passed
  obtain ⟨nonempty, short⟩ := checkSize_ok sized
  refine ⟨nonempty, ?_, short⟩
  split at passed
  · split at passed
    · assumption
    · simp at passed
  · split at passed
    · next mark => rcases mark with rfl | rfl <;> decide
    · split at passed
      · next single => exact single.2
      · split at passed
        · split at passed
          · assumption
          · simp at passed
        · exact plainPart_ok passed

theorem foldlM_nextPart_ok {part last : Part} {subtags : List (List Char)}
    (passed : subtags.foldlM nextPart part = .ok last) : ∀ subtag ∈ subtags, Piece subtag := by
  induction subtags generalizing part with
  | nil => simp
  | cons first others ih =>
    rw [List.foldlM_cons] at passed
    obtain ⟨next, checked, passed⟩ := exists_of_bind_ok passed
    exact List.forall_mem_cons.mpr ⟨nextPart_ok checked, ih passed⟩

theorem firstPart_ok {subtag : List Char} {part : Part} (passed : firstPart subtag = .ok part) :
    Stem subtag := by
  obtain ⟨_, sized, passed⟩ := exists_of_bind_ok passed
  refine ⟨(checkSize_ok sized).1, ?_⟩
  split at passed
  · simp at passed
  · next letters =>
    rw [not_or] at letters
    simpa using letters.2

theorem parted_of_checkSubtags {subtags : List (List Char)} (nonempty : subtags ≠ [])
    (passed : checkSubtags subtags = .ok ()) : Parted subtags := by
  cases subtags with
  | nil => exact absurd rfl nonempty
  | cons first others =>
    obtain ⟨part, begun, passed⟩ := exists_of_bind_ok passed
    obtain ⟨last, continued, -⟩ := exists_of_bind_ok passed
    exact ⟨firstPart_ok begun, foldlM_nextPart_ok continued⟩

theorem forM_ok {ε α : Type} {check : α → Except ε Unit} {items : List α}
    (passed : items.forM check = .ok ()) : ∀ item ∈ items, check item = .ok () := by
  induction items with
  | nil => simp
  | cons first others ih =>
    obtain ⟨_, checked, passed⟩ := exists_of_bind_ok passed
    exact List.forall_mem_cons.mpr ⟨checked, ih passed⟩

theorem checkPrivate_ok {subtags : List (List Char)} (passed : checkPrivate subtags = .ok ()) :
    ∀ subtag ∈ subtags, Piece subtag := by
  unfold checkPrivate at passed
  split at passed
  · simp at passed
  · intro subtag member
    obtain ⟨_, sized, plain⟩ := exists_of_bind_ok (forM_ok passed subtag member)
    obtain ⟨nonempty, short⟩ := checkSize_ok sized
    split at plain
    · exact ⟨nonempty, ‹_›, short⟩
    · simp at plain

/-- A well-formed tag has a first subtag of letters, and short ones of letters and digits. -/
theorem parted_of_wellFormed {tag : String} (wellFormed : refusal? tag = none) :
    Parted (split tag.toList) := by
  have passed : check tag.toList = .ok () := by
    unfold refusal? at wellFormed
    split at wellFormed
    · assumption
    · simp at wellFormed
  unfold check at passed
  split at passed
  · exact parted_of_registered ‹_›
  · split at passed
    · next same => exact same ▸ ⟨by decide, checkPrivate_ok passed⟩
    · next same => exact same ▸ ⟨by decide, checkPrivate_ok passed⟩
    · exact parted_of_checkSubtags (split_ne_nil _) passed

end OwlFunctional.LanguageTag
