import Mathlib.Algebra.Order.Ring.Rat
import ProjectMemory.Foundation.Digits

/-!
# Fixed-point decimals

Printing an exact fraction to a fixed number of decimal places.
-/

namespace Foundation

/-- The nearest whole number to a fraction; a half goes to the even one. -/
def roundHalfEven (numerator denominator : Nat) : Nat :=
  let whole := numerator / denominator
  let rest := 2 * (numerator % denominator)
  if rest < denominator then whole
  else if denominator < rest then whole + 1
  else whole + whole % 2

/-- A number to so many decimal places. -/
def fixedPoint (places : Nat) (value : Rat) : String :=
  let scaled := roundHalfEven (value.num.natAbs * 10 ^ places) value.den
  let sign := if value < 0 then "-" else ""
  let whole := sign ++ toString (scaled / 10 ^ places)
  if places = 0 then whole
  else whole ++ "." ++ String.ofList (fixedDigits 10 places scaled)

/-- A number to so many decimal places, with its sign. -/
def signedFixedPoint (places : Nat) (value : Rat) : String :=
  if value < 0 then fixedPoint places value
  else "+" ++ fixedPoint places value

end Foundation
