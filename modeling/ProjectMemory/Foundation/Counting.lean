import Mathlib.Order.MinMax

/-!
# Counting

How counts of the items with a property compare.
-/

namespace Foundation

universe u v

section Counting

variable {Item : Type u} {weak strong : Item → Bool}

/-- A stronger property holds of as many items exactly where it holds of the
same ones. -/
theorem countP_eq_iff_of_imp {items : List Item}
    (implies : ∀ item ∈ items, strong item = true → weak item = true) :
    items.countP weak = items.countP strong ↔
      ∀ item ∈ items, weak item = true → strong item = true := by
  induction items with
  | nil => exact iff_of_true rfl fun _ none => absurd none List.not_mem_nil
  | cons item items inductionHypothesis =>
      rw [List.forall_mem_cons] at implies ⊢
      have later := inductionHypothesis implies.2
      have fewer : items.countP strong ≤ items.countP weak :=
        List.countP_mono_left implies.2
      rw [← later, List.countP_cons, List.countP_cons]
      by_cases isWeak : weak item = true
      · by_cases isStrong : strong item = true
        · simp [isWeak, isStrong]
        · simp only [isWeak, isStrong, if_true]
          simp only [Bool.false_eq_true, if_false, imp_false, not_true_eq_false,
            false_and, iff_false]
          omega
      · have notStrong : strong item ≠ true := mt implies.1 isWeak
        simp [isWeak, notStrong]

/-- Every item is above an origin, below it or at it. -/
theorem countP_trichotomy {Value : Type v} [LinearOrder Value]
    (value : Item → Value) (origin : Value) (items : List Item) :
    (items.countP fun item => origin < value item) +
        (items.countP fun item => value item < origin) +
        (items.countP fun item => value item = origin) = items.length := by
  induction items with
  | nil => rfl
  | cons item items inductionHypothesis =>
      rw [List.length_cons, ← inductionHypothesis, List.countP_cons,
        List.countP_cons, List.countP_cons]
      rcases lt_trichotomy (value item) origin with below | same | above
      · have notAbove : ¬ origin < value item := lt_asymm below
        have different : value item ≠ origin := ne_of_lt below
        simp only [below, notAbove, different, decide_true, decide_false,
          Bool.false_eq_true, if_true, if_false]
        omega
      · have notAbove : ¬ origin < value item := same ▸ lt_irrefl origin
        have notBelow : ¬ value item < origin := same ▸ lt_irrefl origin
        simp only [notAbove, notBelow, decide_eq_true same, decide_false,
          Bool.false_eq_true, if_true, if_false]
        omega
      · have notBelow : ¬ value item < origin := lt_asymm above
        have different : value item ≠ origin := ne_of_gt above
        simp only [above, notBelow, different, decide_true, decide_false,
          Bool.false_eq_true, if_true, if_false]
        omega

end Counting

end Foundation
