import Mathlib.Algebra.Group.Nat.Defs
import Mathlib.Data.List.Basic

/-!
# Digits

Printing a number in decimal, and in a fixed number of digits of some base up
to sixteen, loses nothing.
-/

namespace Foundation

theorem digitChar_injective {left right : Nat}
    (leftBound : left < 16) (rightBound : right < 16)
    (same : Nat.digitChar left = Nat.digitChar right) :
    left = right := by
  have table : ∀ first < 16, ∀ second < 16,
      Nat.digitChar first = Nat.digitChar second → first = second := by
    decide
  exact table left leftBound right rightBound same

/-- The last `width` digits of a number, most significant first. -/
def fixedDigits (base : Nat) : Nat → Nat → List Char
  | 0, _ => []
  | width + 1, number =>
      fixedDigits base width (number / base) ++
        [Nat.digitChar (number % base)]

@[simp]
theorem length_fixedDigits (base width number : Nat) :
    (fixedDigits base width number).length = width := by
  induction width generalizing number with
  | zero => rfl
  | succ width inductionHypothesis =>
      simp [fixedDigits, inductionHypothesis]

theorem mem_fixedDigits {base : Nat} (positive : 0 < base)
    {width number : Nat} {char : Char}
    (member : char ∈ fixedDigits base width number) :
    ∃ digit < base, char = Nat.digitChar digit := by
  induction width generalizing number with
  | zero => cases member
  | succ width inductionHypothesis =>
      rcases List.mem_append.mp member with earlier | last
      · exact inductionHypothesis earlier
      · exact ⟨number % base, Nat.mod_lt number positive,
          List.mem_singleton.mp last⟩

theorem fixedDigits_injective
    {base : Nat} (positive : 0 < base) (small : base ≤ 16)
    {width left right : Nat}
    (leftBound : left < base ^ width) (rightBound : right < base ^ width)
    (same : fixedDigits base width left = fixedDigits base width right) :
    left = right := by
  induction width generalizing left right with
  | zero =>
      simp only [Nat.pow_zero, Nat.lt_one_iff] at leftBound rightBound
      rw [leftBound, rightBound]
  | succ width inductionHypothesis =>
      have parts := List.append_inj' same rfl
      have sameQuotient : left / base = right / base := by
        apply inductionHypothesis _ _ parts.1
        · exact Nat.div_lt_of_lt_mul (by rwa [← Nat.pow_succ'])
        · exact Nat.div_lt_of_lt_mul (by rwa [← Nat.pow_succ'])
      have sameDigit : left % base = right % base := by
        apply digitChar_injective
        · exact Nat.lt_of_lt_of_le (Nat.mod_lt left positive) small
        · exact Nat.lt_of_lt_of_le (Nat.mod_lt right positive) small
        · simpa using parts.2
      rw [← Nat.div_add_mod left base, ← Nat.div_add_mod right base,
        sameQuotient, sameDigit]

private theorem toDigits_ten_injective :
    ∀ left right : Nat,
      Nat.toDigits 10 left = Nat.toDigits 10 right → left = right := by
  intro left
  induction left using Nat.strongRecOn with
  | ind left inductionHypothesis =>
      intro right same
      have shape (number : Nat) :
          Nat.toDigits 10 number =
            if number < 10 then [Nat.digitChar number]
            else Nat.toDigits 10 (number / 10) ++
              [Nat.digitChar (number % 10)] :=
        Nat.toDigits_eq_if (by decide)
      rw [shape left, shape right] at same
      have nonempty (number : Nat) :
          0 < (Nat.toDigits 10 number).length :=
        List.length_pos_of_ne_nil Nat.toDigits_ne_nil
      have lengths := congrArg List.length same
      split at same <;> split at same
      · rename_i leftSmall rightSmall
        apply digitChar_injective (by omega) (by omega)
        simpa using same
      · rename_i leftSmall rightLarge
        have positive := nonempty (right / 10)
        simp only [leftSmall, rightLarge, if_true, if_false,
          List.length_append, List.length_singleton] at lengths
        omega
      · rename_i leftLarge rightSmall
        have positive := nonempty (left / 10)
        simp only [leftLarge, rightSmall, if_true, if_false,
          List.length_append, List.length_singleton] at lengths
        omega
      · rename_i leftLarge rightLarge
        have parts := List.append_inj' same rfl
        have sameQuotient : left / 10 = right / 10 :=
          inductionHypothesis (left / 10) (by omega) _ parts.1
        have sameDigit : left % 10 = right % 10 := by
          apply digitChar_injective (by omega) (by omega)
          simpa using parts.2
        omega

theorem isDigit_of_mem_repr {number : Nat} {char : Char}
    (member : char ∈ (Nat.repr number).toList) : char.isDigit = true := by
  rw [Nat.toList_repr] at member
  exact Nat.isDigit_of_mem_toDigits (by decide) (by decide) member

theorem repr_injective {left right : Nat}
    (same : Nat.repr left = Nat.repr right) : left = right := by
  apply toDigits_ten_injective
  rw [← Nat.toList_repr, ← Nat.toList_repr, same]

end Foundation
