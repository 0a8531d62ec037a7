import ProjectMemory.Foundation.Windows

/-!
# Batches

A list cut into consecutive pieces of a greatest size, the last one possibly
shorter.
-/

namespace Foundation

universe u v

section Batches

variable {Item : Type u}

/-- `items[i : i + size]` for `i` in `range(0, len(items), size)`. -/
def batches (size : Nat) (items : List Item) : List (List Item) :=
  windows size size items

/-- The pieces make up the items, in their order; none is empty and none too
long. -/
structure Cuts (size : Nat) (items : List Item)
    (pieces : List (List Item)) : Prop where
  flatten : pieces.flatten = items
  sizes : ∀ piece ∈ pieces, 1 ≤ piece.length ∧ piece.length ≤ size
  count : pieces.length = (items.length + size - 1) / size

theorem length_batches (size : Nat) (items : List Item) :
    (batches size items).length = (items.length + size - 1) / size :=
  length_windows size size items

@[simp]
theorem batches_nil (size : Nat) : batches size ([] : List Item) = [] := by
  have noRounds : (0 + size - 1) / size = 0 := by
    rw [Nat.zero_add]
    cases size with
    | zero => rfl
    | succ size => exact Nat.div_eq_of_lt (Nat.lt_succ_self size)
  rw [batches, windows, List.length_nil, noRounds]
  rfl

/-- Batches of two or more make a longer list shorter. -/
theorem rounds_lt {size length : Nat} (large : 2 ≤ size)
    (several : 2 ≤ length) : (length + size - 1) / size < length := by
  have twice : length * 2 ≤ length * size := Nat.mul_le_mul_left length large
  have grown : 2 * size ≤ length * size := Nat.mul_le_mul_right size several
  rw [Nat.div_lt_iff_lt_mul (by omega)]
  omega

/-- The first batch, and those of the rest. -/
theorem batches_of_ne_nil {size : Nat} (positive : 1 ≤ size)
    {items : List Item} (nonempty : items ≠ []) :
    batches size items =
      items.take size :: batches size (items.drop size) :=
  windows_of_ne_nil positive nonempty

theorem batches_of_length_le {size : Nat} {items : List Item}
    (nonempty : items ≠ []) (short : items.length ≤ size) :
    batches size items = [items] := by
  have positive : 1 ≤ size :=
    Nat.le_trans (List.length_pos_iff.mpr nonempty) short
  rw [batches_of_ne_nil positive nonempty, List.take_of_length_le short,
    List.drop_of_length_le short, batches_nil]

theorem batches_one (items : List Item) :
    batches 1 items = items.map fun item => [item] := by
  induction items with
  | nil => exact batches_nil 1
  | cons item items inductionHypothesis =>
      rw [batches_of_ne_nil (Nat.le_refl 1) (List.cons_ne_nil item items),
        List.map_cons, ← inductionHypothesis]
      rfl

theorem batches_map {Image : Type v} (image : Item → Image) (size : Nat)
    (items : List Item) :
    batches size (items.map image) =
      (batches size items).map (List.map image) := by
  rw [batches, batches, windows, windows, List.length_map, List.map_map]
  refine List.map_congr_left fun round _ => ?_
  rw [Function.comp_apply, List.map_take, List.map_drop]

theorem flatten_batches {size : Nat} (positive : 1 ≤ size)
    (items : List Item) : (batches size items).flatten = items := by
  induction items using drop_induction positive with
  | nil => rw [batches_nil, List.flatten_nil]
  | cut items nonempty inductionHypothesis =>
      rw [batches_of_ne_nil positive nonempty, List.flatten_cons,
        inductionHypothesis, List.take_append_drop]

theorem length_of_mem_batches {size : Nat} (positive : 1 ≤ size)
    {items : List Item} :
    ∀ batch ∈ batches size items, 1 ≤ batch.length ∧ batch.length ≤ size := by
  induction items using drop_induction positive with
  | nil =>
      intro batch member
      rw [batches_nil] at member
      cases member
  | cut items nonempty inductionHypothesis =>
      intro batch member
      rw [batches_of_ne_nil positive nonempty] at member
      rcases List.mem_cons.mp member with first | later
      · have length := List.length_pos_iff.mpr nonempty
        rw [first, List.length_take]
        omega
      · exact inductionHypothesis batch later

theorem mem_of_mem_batches {size : Nat} {items batch : List Item}
    (member : batch ∈ batches size items) : ∀ item ∈ batch, item ∈ items := by
  obtain ⟨round, found⟩ := List.getElem?_of_mem member
  rw [(getElem?_windows found).2]
  intro item isItem
  exact List.mem_of_mem_drop (List.mem_of_mem_take isItem)

theorem length_le_of_mem_batches {size : Nat} {items batch : List Item}
    (member : batch ∈ batches size items) :
    batch.length ≤ min size items.length := by
  obtain ⟨round, found⟩ := List.getElem?_of_mem member
  rw [(getElem?_windows found).2, List.length_take, List.length_drop]
  omega

theorem cuts_batches {size : Nat} (positive : 1 ≤ size)
    (items : List Item) : Cuts size items (batches size items) where
  flatten := flatten_batches positive items
  sizes := length_of_mem_batches positive
  count := length_batches size items

end Batches

end Foundation
