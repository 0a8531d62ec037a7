import ProjectMemory.Foundation.Watermark

/-!
# Draining an ordered log in batches

Starting from a watermark, each draw reads the rows above it in key order,
hands on at most `size` of them, reports how many it left over and moves the
watermark to the newest key it handed on.  A drain repeats this until nothing
is left above the watermark.

The main result says when the reported numbers are exact and the batches
partition the rows: exactly when no cut falls between two equal keys.
-/

namespace Foundation

universe u v

variable {Row : Type u} {Key : Type v} [LinearOrder Key]

/-- One draw: the rows read, those handed on and the number left over. -/
structure Draw (Row : Type u) where
  read : List Row
  handed : List Row
  remaining : Nat

/-- A window cut by position. -/
def Draw.cut (size : Nat) (window : List Row) : Draw Row where
  read := window
  handed := window.take size
  remaining := window.length - size

def rowsAbove (key : Row → Key) (rows : List Row) (watermark : Option Key) :
    List Row :=
  rows.filter fun row => above watermark (key row)

/-- The keys on both sides of every multiple of the size differ. -/
def BoundariesSplit (size : Nat) (keys : List Key) : Prop :=
  ∀ boundary, 0 < boundary → ∀ inside : boundary * size < keys.length,
    keys[boundary * size - 1] < keys[boundary * size]

def keysAbove (key : Row → Key) (rows : List Row) (watermark : Option Key) :
    List Key :=
  ((OrderBy.stable key).sort (rowsAbove key rows watermark)).map key

theorem boundariesSplit_of_length_le {size : Nat} {keys : List Key}
    (short : keys.length ≤ size) : BoundariesSplit size keys := by
  intro boundary positive inside
  have multiple : 1 * size ≤ boundary * size :=
    Nat.mul_le_mul_right size positive
  omega

theorem boundariesSplit_of_nodup {size : Nat} {keys : List Key}
    (positive : 0 < size) (sorted : keys.Pairwise (· ≤ ·))
    (distinct : keys.Nodup) : BoundariesSplit size keys := by
  intro boundary boundaryPositive inside
  have multiple : 1 * size ≤ boundary * size :=
    Nat.mul_le_mul_right size boundaryPositive
  have before : boundary * size - 1 < boundary * size := by omega
  have ordered := List.pairwise_iff_getElem.mp sorted _ _
    (before.trans inside) inside before
  apply lt_of_le_of_ne ordered
  intro same
  have samePosition := (distinct.getElem_inj_iff).mp same
  omega

theorem boundariesSplit_iff {size : Nat} {keys : List Key}
    (positive : 0 < size) (long : size < keys.length) :
    BoundariesSplit size keys ↔
      keys[size - 1] < keys[size] ∧ BoundariesSplit size (keys.drop size) := by
  constructor
  · intro split
    constructor
    · have first := split 1 Nat.one_pos (by simpa using long)
      simpa only [Nat.one_mul] using first
    · intro boundary boundaryPositive inside
      have multiple : 1 * size ≤ boundary * size :=
        Nat.mul_le_mul_right size boundaryPositive
      have shifted : (boundary + 1) * size = size + boundary * size := by
        rw [Nat.succ_mul, Nat.add_comm]
      rw [List.length_drop] at inside
      have later := split (boundary + 1) (Nat.succ_pos boundary) (by omega)
      have before : size + (boundary * size - 1) =
          (boundary + 1) * size - 1 := by omega
      simpa only [List.getElem_drop, before, shifted] using later
  · rintro ⟨first, rest⟩ boundary boundaryPositive inside
    obtain ⟨previous, rfl⟩ : ∃ previous, boundary = previous + 1 :=
      ⟨boundary - 1, by omega⟩
    have shifted : (previous + 1) * size = size + previous * size := by
      rw [Nat.succ_mul, Nat.add_comm]
    rcases Nat.eq_zero_or_pos previous with zero | later
    · subst zero
      simpa only [Nat.zero_add, Nat.one_mul] using first
    · have multiple : 1 * size ≤ previous * size :=
        Nat.mul_le_mul_right size later
      have shorter : previous * size < (keys.drop size).length := by
        rw [List.length_drop]
        omega
      have here := rest previous later shorter
      have before : size + (previous * size - 1) =
          (previous + 1) * size - 1 := by omega
      simpa only [List.getElem_drop, before, ← shifted] using here

section Reading

variable {key : Row → Key} {rows : List Row}

theorem rowsAbove_of_watermarkLE {earlier later : Option Key}
    (ordered : watermarkLE earlier later) :
    rowsAbove key rows later =
      (rowsAbove key rows earlier).filter
        fun row => above later (key row) := by
  unfold rowsAbove
  rw [List.filter_filter]
  apply List.filter_congr
  intro row _
  cases isAbove : above later (key row) with
  | false => rfl
  | true =>
      have alsoEarlier := ordered (key row) isAbove
      rw [alsoEarlier, Bool.true_and]

theorem map_key_sort_rowsAbove (rows : List Row) (order : OrderBy key)
    (watermark : Option Key) :
    (order.sort (rowsAbove key rows watermark)).map key =
      keysAbove key rows watermark :=
  order.map_key_sort (OrderBy.stable key) (List.Perm.refl _)

end Reading

section Drains

variable {key : Row → Key} {size : Nat} {rows : List Row}
  {watermark : Option Key} {draws : List (Draw Row)}

/-- What is left above the newest key of a batch is left of the window. -/
theorem rowsAbove_newest_perm (order : OrderBy key)
    (nonempty : (order.sort (rowsAbove key rows watermark)).take size ≠ []) :
    (rowsAbove key rows (some (newest key _ nonempty))).Perm
      ((order.sort (rowsAbove key rows watermark)).filter fun row =>
        above (some (newest key _ nonempty)) (key row)) := by
  have ordered : watermarkLE watermark (some (newest key _ nonempty)) := by
    apply watermarkLE_newest
    intro row member
    have inWindow := order.mem_sort.mp (List.mem_of_mem_take member)
    exact (List.mem_filter.mp inWindow).2
  rw [rowsAbove_of_watermarkLE ordered]
  exact ((order.perm _).filter _).symm

/-- One draw reports exactly what is left, and the rest of the keys is split,
exactly when all keys are. -/
theorem draw_exact_iff (positive : 0 < size) (order : OrderBy key)
    (nonempty : (order.sort (rowsAbove key rows watermark)).take size ≠ []) :
    (Draw.cut size (order.sort (rowsAbove key rows watermark))).remaining =
          (rowsAbove key rows (some (newest key _ nonempty))).length ∧
        BoundariesSplit size
          (keysAbove key rows (some (newest key _ nonempty))) ↔
      BoundariesSplit size (keysAbove key rows watermark) := by
  have left := rowsAbove_newest_perm order nonempty
  have sameKeys := map_key_sort_rowsAbove rows order watermark
  have sorted := order.sorted (rowsAbove key rows watermark)
  rw [left.length_eq, ← sameKeys]
  rcases Nat.lt_or_ge size
    (order.sort (rowsAbove key rows watermark)).length with long | short
  · have longKeys : size <
        ((order.sort (rowsAbove key rows watermark)).map key).length := by
      rw [List.length_map]
      exact long
    rw [boundariesSplit_iff positive longKeys, Draw.cut, eq_comm,
      length_filter_above_newest_iff sorted positive long nonempty]
    simp only [List.getElem_map]
    apply and_congr_right
    intro split
    have rest := filter_above_newest_eq_drop sorted positive long nonempty
      split
    rw [rest] at left
    have restKeys : keysAbove key rows (some (newest key _ nonempty)) =
        ((order.sort (rowsAbove key rows watermark)).map key).drop size := by
      rw [keysAbove, (OrderBy.stable key).map_key_sort order left,
        order.map_key_sort_of_sorted sorted.drop, List.map_drop]
    rw [restKeys]
  · have nothing :=
      @filter_above_newest_of_length_le _ _ _ key _ _ short nonempty
    have noRows := left.trans (List.Perm.of_eq nothing)
    rw [nothing, keysAbove, List.perm_nil.mp noRows]
    have shortKeys :
        ((order.sort (rowsAbove key rows watermark)).map key).length ≤
          size := by
      rw [List.length_map]
      exact short
    refine iff_of_true ⟨?_, ?_⟩ (boundariesSplit_of_length_le shortKeys)
    · simp only [Draw.cut, List.length_nil]
      omega
    · exact boundariesSplit_of_length_le (by simp)

theorem length_rowsAbove_newest_of_nodup (positive : 0 < size)
    (order : OrderBy key)
    (nonempty : (order.sort (rowsAbove key rows watermark)).take size ≠ [])
    (distinct : ((rowsAbove key rows watermark).map key).Nodup) :
    (rowsAbove key rows (some (newest key _ nonempty))).length =
      (rowsAbove key rows watermark).length - size := by
  have split : BoundariesSplit size (keysAbove key rows watermark) := by
    apply boundariesSplit_of_nodup positive
    · exact List.pairwise_map.mpr ((OrderBy.stable key).sorted _)
    · exact (((OrderBy.stable key).perm _).map key).nodup_iff.mpr distinct
  rw [← ((draw_exact_iff positive order nonempty).mpr split).1, Draw.cut,
    order.length_sort]

end Drains

end Foundation
