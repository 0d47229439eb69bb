/-
# Rounding

The integer nearest to a fraction, and of two equally near the even one.
-/

namespace TapeMachine.Rounding

/-- The integer nearest to `numerator / denominator`. -/
def nearest (numerator denominator : Nat) : Nat :=
  let lower := numerator / denominator
  let rest := numerator % denominator
  if 2 * rest < denominator || (2 * rest = denominator && lower % 2 = 0) then lower
  else lower + 1

end TapeMachine.Rounding
