import Mathlib.Data.List.Basic

/-!
# Windows

The windows of some size that start at every multiple of a step.  With a step
no larger than the size they cover the list, and a run that is no longer than
the overlap of two windows, and one more item, lies inside one of them.
-/

namespace Foundation

universe u

section Windows

variable {Item : Type u}

/-- `items[i : i + size]` for `i` in `range(0, len(items), step)`. -/
def windows (size step : Nat) (items : List Item) : List (List Item) :=
  (List.range ((items.length + step - 1) / step)).map fun round =>
    (items.drop (round * step)).take size

theorem rounds_drop {size length : Nat} (positive : 1 ≤ size)
    (nonempty : 1 ≤ length) :
    (length + size - 1) / size = (length - size + size - 1) / size + 1 := by
  have shifted : length + size - 1 = length - 1 + size := by omega
  rw [shifted, Nat.add_div_right _ positive]
  by_cases short : length ≤ size
  · have first : (length - 1) / size = 0 := Nat.div_eq_of_lt (by omega)
    have second : (length - size + size - 1) / size = 0 :=
      Nat.div_eq_of_lt (by omega)
    rw [first, second]
  · have same : length - size + size - 1 = length - 1 := by omega
    rw [same]

theorem rounds_pos {size length : Nat} (positive : 1 ≤ size)
    (nonempty : 1 ≤ length) : 1 ≤ (length + size - 1) / size := by
  rw [rounds_drop positive nonempty]
  exact Nat.le_add_left 1 _

theorem length_windows (size step : Nat) (items : List Item) :
    (windows size step items).length = (items.length + step - 1) / step := by
  rw [windows, List.length_map, List.length_range]

theorem getElem?_windows {size step : Nat} {items : List Item} {round : Nat}
    {window : List Item}
    (found : (windows size step items)[round]? = some window) :
    round < (items.length + step - 1) / step ∧
      window = (items.drop (round * step)).take size := by
  have inside := (List.getElem?_eq_some_iff.mp found).1
  rw [length_windows] at inside
  rw [windows, List.getElem?_map, List.getElem?_range inside] at found
  exact ⟨inside, (Option.some.inj found).symm⟩

/-- The first window, and those of the rest. -/
theorem windows_of_ne_nil {size step : Nat} (forward : 1 ≤ step)
    {items : List Item} (nonempty : items ≠ []) :
    windows size step items =
      items.take size :: windows size step (items.drop step) := by
  have length : 1 ≤ items.length := List.length_pos_iff.mpr nonempty
  rw [windows, rounds_drop forward length, List.range_succ_eq_map,
    List.map_cons, List.map_map, windows, List.length_drop]
  congr 1
  · rw [Nat.zero_mul, List.drop_zero]
  · refine List.map_congr_left fun round _ => ?_
    rw [Function.comp_apply, List.drop_drop, Nat.succ_mul, Nat.add_comm]

/-- The induction that drops one step after the other. -/
theorem drop_induction {step : Nat} (forward : 1 ≤ step)
    {property : List Item → Prop} (nil : property [])
    (cut : ∀ items, items ≠ [] → property (items.drop step) →
      property items) :
    ∀ items, property items := by
  intro items
  generalize bound : items.length = length
  induction length using Nat.strongRecOn generalizing items with
  | ind length inductionHypothesis =>
      by_cases empty : items = []
      · rw [empty]
        exact nil
      · have shorter : (items.drop step).length < length := by
          have := List.length_pos_iff.mpr empty
          rw [List.length_drop]
          omega
        exact cut items empty
          (inductionHypothesis _ shorter _ rfl)

/-- A window starts inside the list. -/
theorem start_lt_of_lt_rounds {step length round : Nat} (forward : 1 ≤ step)
    (inside : round < (length + step - 1) / step) :
    round * step < length := by
  have reached : (round + 1) * step ≤ length + step - 1 :=
    (Nat.le_div_iff_mul_le forward).mp inside
  rw [Nat.succ_mul] at reached
  omega

theorem ne_nil_of_mem_windows {size step : Nat} (positive : 1 ≤ size)
    (forward : 1 ≤ step) {items window : List Item}
    (member : window ∈ windows size step items) : window ≠ [] := by
  obtain ⟨round, found⟩ := List.getElem?_of_mem member
  obtain ⟨inside, isWindow⟩ := getElem?_windows found
  have start := start_lt_of_lt_rounds forward inside
  apply List.ne_nil_of_length_pos
  rw [isWindow, List.length_take, List.length_drop]
  omega

/-- What each window adds to the ones before makes up the list. -/
theorem flatten_take_windows {size step : Nat} (forward : 1 ≤ step)
    (covers : step ≤ size) (items : List Item) :
    ((windows size step items).map (List.take step)).flatten = items := by
  induction items using drop_induction forward with
  | nil =>
      have noRounds : (0 + step - 1) / step = 0 :=
        Nat.div_eq_of_lt (by omega)
      rw [windows, List.length_nil, noRounds]
      rfl
  | cut items nonempty inductionHypothesis =>
      rw [windows_of_ne_nil forward nonempty, List.map_cons,
        List.flatten_cons, inductionHypothesis, List.take_take,
        Nat.min_eq_left covers, List.take_append_drop]

/-- A short run lies inside the window that starts last before it. -/
theorem exists_window_of_run {size step length start count : Nat}
    (forward : 1 ≤ step) (some : 1 ≤ count) (inside : start + count ≤ length)
    (short : count ≤ size - step + 1) (covers : step ≤ size) :
    ∃ round < (length + step - 1) / step,
      round * step ≤ start ∧
      start + count ≤ min (round * step + size) length := by
  have last := Nat.div_add_mod start step
  have within := Nat.mod_lt start forward
  rw [Nat.mul_comm] at last
  refine ⟨start / step, ?_, by omega, by omega⟩
  rw [Nat.lt_iff_add_one_le, Nat.le_div_iff_mul_le forward, Nat.succ_mul]
  omega

end Windows

end Foundation
