/-
# Double precision numbers

A double is kept as its 64 bits. What it stands for is read off them: a sign, and either a
special value or an integer times a power of two.
-/

namespace TapeMachine

/-- A double, by its bits. -/
structure Binary64 where
  bits : UInt64
  deriving DecidableEq

namespace Binary64

/-- What a double stands for. -/
inductive Value where
  | nan
  | infinite (negative : Bool)
  /-- The number `mantissa * 2 ^ exponent`, or its negative. -/
  | finite (negative : Bool) (mantissa : Nat) (exponent : Int)
  deriving DecidableEq

/-- The bit that a mantissa has in front of the ones that are kept: two to the power 52. -/
def hiddenBit : Nat := 0x10000000000000

def value (double : Binary64) : Value :=
  let bits := double.bits.toNat
  let negative := 0x8000000000000000 ≤ bits
  let biased := bits / hiddenBit % 2048
  let fraction := bits % hiddenBit
  if biased = 2047 then
    if fraction = 0 then .infinite negative else .nan
  else if biased = 0 then
    .finite negative fraction (-1074)
  else
    .finite negative (fraction + hiddenBit) ((biased : Int) - 1075)

/-- Whether a double is the natural number `number`. -/
def equalsNat (double : Binary64) (number : Nat) : Bool :=
  match double.value with
  | .finite negative mantissa exponent =>
      (!negative || mantissa = 0) &&
        mantissa * Nat.pow 2 exponent.toNat = number * Nat.pow 2 (-exponent).toNat
  | _ => false

end Binary64

end TapeMachine
