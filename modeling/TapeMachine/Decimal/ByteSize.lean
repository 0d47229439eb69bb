/-
# Sizes in bytes

A size is written in the greatest unit of which it holds at least one, each unit being 1024 of
the one before it. It has three digits, or four where the unit is almost reached, and a point
even where nothing follows it. Single bytes have no point.
-/

import TapeMachine.Decimal.Rounding

namespace TapeMachine.ByteSize

def units : List String := ["bytes", "KiB", "MiB", "GiB", "TiB", "PiB", "EiB"]

/-- The fewest digits that are written for a number below a thousand. -/
def digits (count value : Nat) : List Char :=
  (Nat.toDigits 10 value).leftpad count '0'

/-- A fraction with three digits, or with all of its digits before the point. -/
def significant (numerator denominator : Nat) : List Char :=
  let hundredths := Rounding.nearest (numerator * 100) denominator
  let tenths := Rounding.nearest (numerator * 10) denominator
  if hundredths < 1000 then digits 1 (hundredths / 100) ++ '.' :: digits 2 (hundredths % 100)
  else if tenths < 1000 then digits 2 (tenths / 10) ++ '.' :: digits 1 (tenths % 10)
  else digits 3 (Rounding.nearest numerator denominator) ++ ['.']

/-- The number of the unit of a size. A size that is rounded up to the next unit has that one. -/
def unitIndex (size : Nat) : Nat :=
  let index := size.log2 / 10
  let index := if Rounding.nearest size (Nat.pow 1024 index) = 1024 then index + 1 else index
  min index (units.length - 1)

def write (size : Nat) : String :=
  let index := unitIndex size
  let number :=
    if index = 0 then Nat.toDigits 10 size else significant size (Nat.pow 1024 index)
  String.ofList number ++ " " ++ units.getD index ""

end TapeMachine.ByteSize
