import Mathlib.Data.List.Basic

/-!
# Two-run reasoning about programs that may fail

A program reads a state and returns a value or raises.  It transports success
along a relation between states when a value returned in the first state is
returned in the second as well.  The rules follow the structure of a program;
a check that a first part has passed is known in the rest.
-/

namespace Foundation

universe u v w

section Transport

variable {State : Type u} {Error : Type v} {Value Result : Type w}
  {related : State → State → Prop}

/-- What the program returns in a state it returns in every related one. -/
def Transports (related : State → State → Prop)
    (program : State → Except Error Value) : Prop :=
  ∀ left right, related left right → ∀ value,
    program left = .ok value → program right = .ok value

theorem transports_const (result : Except Error Value) :
    Transports related fun _ => result :=
  fun _ _ _ _ returned => returned

theorem transports_of_eq {program : State → Except Error Value}
    (same : ∀ left right, related left right →
      program left = program right) :
    Transports related program := by
  intro left right isRelated value returned
  rw [← same left right isRelated]
  exact returned

/-- The second part may rely on what the first has returned. -/
theorem Transports.bind {first : State → Except Error Value}
    {second : Value → State → Except Error Result}
    (firstTransports : Transports related first)
    (secondTransports : ∀ value,
      Transports
        (fun left right => related left right ∧ first left = .ok value)
        (second value)) :
    Transports related fun state =>
      first state >>= fun value => second value state := by
  intro left right isRelated result returned
  change first left >>= (fun value => second value left) = .ok result
    at returned
  change first right >>= (fun value => second value right) = .ok result
  cases firstReturned : first left with
  | error raised =>
      rw [firstReturned] at returned
      cases returned
  | ok value =>
      have firstAgain :=
        firstTransports left right isRelated value firstReturned
      rw [firstReturned] at returned
      rw [firstAgain]
      exact secondTransports value left right ⟨isRelated, firstReturned⟩
        result returned

end Transport

end Foundation
