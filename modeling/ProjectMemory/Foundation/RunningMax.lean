import Mathlib.Data.List.Induction
import Mathlib.Order.Lattice

/-!
# A running maximum

A loop keeps the item with the largest value it has met, and replaces it only
by an item with a larger one.  It starts from a value that no item need reach.
-/

namespace Foundation

universe u v

section RunningMax

variable {Item : Type u} {Value : Type v} [LinearOrder Value]
  (value : Item → Value)

def runningMaxStep (best : Option Item × Value) (item : Item) :
    Option Item × Value :=
  if best.2 < value item then (some item, value item) else best

def runningMax (start : Value) (items : List Item) : Option Item × Value :=
  items.foldl (runningMaxStep value) (none, start)

/-- What a loop has found among the items that it has met. -/
structure IsRunningMax (start : Value) (items : List Item)
    (best : Option Item × Value) : Prop where
  start_le : start ≤ best.2
  le : ∀ item ∈ items, value item ≤ best.2
  nothing : best.1 = none → best.2 = start
  found : ∀ item, best.1 = some item → item ∈ items ∧ best.2 = value item

variable {value}

theorem isRunningMax_step {start : Value} {items : List Item}
    {best : Option Item × Value} (isMax : IsRunningMax value start items best)
    (item : Item) :
    IsRunningMax value start (items ++ [item])
      (runningMaxStep value best item) := by
  by_cases larger : best.2 < value item
  · rw [runningMaxStep, if_pos larger]
    refine ⟨le_trans isMax.start_le (le_of_lt larger), ?_, nofun, ?_⟩
    · intro other member
      rcases List.mem_append.mp member with earlier | last
      · exact le_trans (isMax.le other earlier) (le_of_lt larger)
      · rw [List.mem_singleton.mp last]
    · intro other isFound
      obtain rfl := Option.some.inj isFound
      exact ⟨List.mem_append_right items List.mem_cons_self, rfl⟩
  · rw [runningMaxStep, if_neg larger]
    refine ⟨isMax.start_le, ?_, isMax.nothing, ?_⟩
    · intro other member
      rcases List.mem_append.mp member with earlier | last
      · exact isMax.le other earlier
      · rw [List.mem_singleton.mp last]
        exact not_lt.mp larger
    · intro other isFound
      obtain ⟨member, isValue⟩ := isMax.found other isFound
      exact ⟨List.mem_append_left _ member, isValue⟩

theorem isRunningMax_runningMax (start : Value) (items : List Item) :
    IsRunningMax value start items (runningMax value start items) := by
  induction items using List.reverseRecOn with
  | nil => exact ⟨le_refl start, nofun, fun _ => rfl, nofun⟩
  | append_singleton items item inductionHypothesis =>
      rw [runningMax, List.foldl_append]
      exact isRunningMax_step inductionHypothesis item

end RunningMax

end Foundation
