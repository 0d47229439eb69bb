/-
# Shortest decimals

The shortest decimal of a double has the fewest digits among all decimals that read back as the
double. Every decimal between the midpoints to the two neighbouring doubles does, and a midpoint
itself does when the mantissa is even. Among decimals of that length the one nearest to the
double is taken, and of two equally near the one with an even last digit.
-/

import TapeMachine.Decimal.Binary64

namespace TapeMachine.Shortest

/-- The decimal `digits * 10 ^ exponent`. -/
structure Decimal where
  digits : Nat
  exponent : Int
  deriving DecidableEq

/-- The positive fraction `numerator / denominator`. -/
structure Fraction where
  numerator : Nat
  denominator : Nat

/-- The fraction `mantissa * 2 ^ exponent`. -/
def Fraction.scaled (mantissa : Nat) (exponent : Int) : Fraction :=
  ⟨mantissa * Nat.pow 2 exponent.toNat, Nat.pow 2 (-exponent).toNat⟩

/-- The exponent of the first digit: the largest `e` with `10 ^ e` not above the fraction,
searched downwards from `start`. -/
def leadingExponent (fraction : Fraction) : Nat → Int → Int
  | 0, start => start
  | fuel + 1, start =>
      let power := fraction.denominator * Nat.pow 10 start.toNat
      if power ≤ fraction.numerator * Nat.pow 10 (-start).toNat then
        start
      else
        leadingExponent fraction fuel (start - 1)

/-- Whether `candidate * 10 ^ power` reads back as the double `mantissa * 2 ^ exponent`. All
numbers are compared in quarters of the last binary place; below a power of two the neighbour is
only half as far. -/
def readsBack (mantissa : Nat) (exponent : Int) (candidate : Nat) (power : Int) : Bool :=
  let unit := exponent - 2
  let scale := Nat.pow 10 (-power).toNat * Nat.pow 2 unit.toNat
  let middle := 4 * mantissa * scale
  let place := candidate * Nat.pow 10 power.toNat * Nat.pow 2 (-unit).toNat
  let below := if mantissa = Binary64.hiddenBit && -1074 < exponent then scale else 2 * scale
  let above := 2 * scale
  if mantissa % 2 = 0 then
    middle ≤ place + below && place ≤ middle + above
  else
    middle < place + below && place < middle + above

/-- The decimal with the fewest digits, from `length` digits on. Each length offers the two
decimals next to the double. -/
def search (mantissa : Nat) (exponent leading : Int) : Nat → Nat → Decimal
  | 0, length =>
      let power := leading - length + 1
      ⟨mantissa * Nat.pow 2 exponent.toNat * Nat.pow 10 (-power).toNat, power⟩
  | fuel + 1, length =>
      let power := leading - length + 1
      let numerator := mantissa * Nat.pow 2 exponent.toNat * Nat.pow 10 (-power).toNat
      let denominator := Nat.pow 2 (-exponent).toNat * Nat.pow 10 power.toNat
      let lower := numerator / denominator
      let rest := numerator % denominator
      let fits (candidate : Nat) := readsBack mantissa exponent candidate power
      match fits lower, fits (lower + 1) with
      | true, true =>
          if 2 * rest < denominator || (2 * rest = denominator && lower % 2 = 0) then
            ⟨lower, power⟩
          else
            ⟨lower + 1, power⟩
      | true, false => ⟨lower, power⟩
      | false, true => ⟨lower + 1, power⟩
      | false, false => search mantissa exponent leading fuel (length + 1)

/-- The shortest decimal of the double `mantissa * 2 ^ exponent`, which is not zero. Seventeen
digits are always enough. -/
def ofFinite (mantissa : Nat) (exponent : Int) : Decimal :=
  let fraction := Fraction.scaled mantissa exponent
  let leading := leadingExponent fraction 640 309
  search mantissa exponent leading 17 1

end TapeMachine.Shortest
