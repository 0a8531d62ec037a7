import Mathlib.Data.List.Forall2

/-!
# Computations that have returned

What is known of the parts of a computation that may fail once the whole of it
has returned a value.
-/

namespace Foundation

universe u v w

variable {Fault : Type u}

theorem bind_eq_ok {Value Result : Type v} {first : Except Fault Value}
    {rest : Value → Except Fault Result} {result : Result} :
    (first >>= rest) = .ok result ↔
      ∃ value, first = .ok value ∧ rest value = .ok result := by
  cases first with
  | error failure =>
      constructor
      · intro returned
        cases returned
      · rintro ⟨value, same, _⟩
        cases same
  | ok value =>
      constructor
      · intro returned
        exact ⟨value, rfl, returned⟩
      · rintro ⟨other, same, returned⟩
        cases same
        exact returned

/-- The values that a traversal returns, one for each item. -/
theorem forall₂_of_mapM {Source : Type w} {Target : Type v}
    {convert : Source → Except Fault Target} {sources : List Source} :
    ∀ {targets : List Target}, sources.mapM convert = .ok targets →
      List.Forall₂ (fun source target => convert source = .ok target)
        sources targets := by
  induction sources with
  | nil =>
      intro targets converted
      cases converted
      exact List.Forall₂.nil
  | cons source sources inductionHypothesis =>
      intro targets converted
      rw [List.mapM_cons] at converted
      obtain ⟨target, here, after⟩ := bind_eq_ok.mp converted
      obtain ⟨rest, later, whole⟩ := bind_eq_ok.mp after
      cases whole
      exact List.Forall₂.cons here (inductionHypothesis later)

end Foundation
