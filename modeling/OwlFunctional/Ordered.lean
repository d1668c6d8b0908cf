/-! Lists in the order of a text, with at most one item for each.

The bindings of prefixes and the entries of a catalogue are such lists. Both are built with `placeBy`
only and carry the proof of their order.
-/

set_option autoImplicit false

namespace OwlFunctional

variable {α : Type} {key : α → String} {item : α} {items : List α}

/-- Puts an item at its place in an ordered list, where it replaces one of the same key. -/
def placeBy (key : α → String) (item : α) : List α → List α
  | [] => [item]
  | first :: rest =>
    if key item < key first then item :: first :: rest
    else if key item = key first then item :: rest
    else first :: placeBy key item rest

/-- Each key is greater than those before it. -/
def Ordered (key : α → String) (items : List α) : Prop :=
  items.Pairwise fun first second => key first < key second

theorem ordered_iff : Ordered key items ↔ (items.map key).Pairwise (· < ·) :=
  List.pairwise_map.symm

theorem Ordered.congr {others : List α} (ordered : Ordered key items)
    (same : items.map key = others.map key) : Ordered key others := by
  rw [ordered_iff] at ordered ⊢
  rwa [← same]

theorem Ordered.nodup (ordered : Ordered key items) : (items.map key).Nodup :=
  (ordered_iff.mp ordered).imp fun less => String.ne_of_lt less

theorem mem_placeBy {other : α} (member : other ∈ placeBy key item items) :
    other = item ∨ other ∈ items := by
  induction items with
  | nil => simpa [placeBy] using member
  | cons first rest ih =>
    simp only [placeBy] at member
    split at member
    · simpa using member
    · split at member
      · rcases List.mem_cons.mp member with same | member
        · exact .inl same
        · exact .inr (List.mem_cons_of_mem _ member)
      · rcases List.mem_cons.mp member with rfl | member
        · exact .inr List.mem_cons_self
        · exact (ih member).imp_right (List.mem_cons_of_mem _)

theorem mem_placeBy_self (item : α) (items : List α) : item ∈ placeBy key item items := by
  induction items with
  | nil => exact List.mem_singleton.mpr rfl
  | cons first rest ih =>
    simp only [placeBy]
    split
    · exact List.mem_cons_self
    · split
      · exact List.mem_cons_self
      · exact List.mem_cons_of_mem _ ih

theorem Ordered.placeBy (ordered : Ordered key items) (item : α) :
    Ordered key (placeBy key item items) := by
  induction items with
  | nil => exact List.pairwise_singleton _ _
  | cons first rest ih =>
    obtain ⟨above, others⟩ := List.pairwise_cons.mp ordered
    simp only [OwlFunctional.placeBy]
    split
    · next less =>
      refine List.pairwise_cons.mpr ⟨fun other member => ?_, ordered⟩
      rcases List.mem_cons.mp member with rfl | member
      · exact less
      · exact String.lt_trans less (above other member)
    · next notLess =>
      split
      · next same => exact List.pairwise_cons.mpr ⟨fun other member => same ▸ above other member, others⟩
      · next different =>
        refine List.pairwise_cons.mpr ⟨fun other member => ?_, ih others⟩
        rcases mem_placeBy member with rfl | member
        · have atMost : key first ≤ key other := notLess
          exact Std.lt_of_le_of_ne atMost fun same => different same.symm
        · exact above other member

theorem placeBy_last (below : ∀ other ∈ items, key other < key item) :
    placeBy key item items = items ++ [item] := by
  induction items with
  | nil => rfl
  | cons first rest ih =>
    have less := below first List.mem_cons_self
    rw [placeBy, if_neg (String.lt_asymm less), if_neg (String.ne_of_lt less).symm,
      ih fun other member => below other (List.mem_cons_of_mem _ member)]
    rfl

theorem foldl_placeBy {before : List α} (ordered : Ordered key (before ++ items)) :
    items.foldl (fun placed item => placeBy key item placed) before = before ++ items := by
  induction items generalizing before with
  | nil => simp
  | cons item items ih =>
    have below : ∀ other ∈ before, key other < key item :=
      fun other member => (List.pairwise_append.mp ordered).2.2 other member item List.mem_cons_self
    rw [List.foldl_cons, placeBy_last below, ih (by simpa using ordered), List.append_assoc]
    rfl

end OwlFunctional
