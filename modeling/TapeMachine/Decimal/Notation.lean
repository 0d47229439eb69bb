/-
# How a double is written

A double is written with its shortest decimal. Numbers whose first digit stands for at least
`10 ^ -4` and less than `10 ^ 16` are written in place, with at least one digit after the point;
the others with one digit before the point and an exponent of at least two digits and a sign.
-/

import TapeMachine.Decimal.Shortest

namespace TapeMachine.Binary64

open Shortest

/-- The digits of a positive decimal without zeros at the end, and the exponent of the first. -/
def significant (decimal : Decimal) : List Char × Int :=
  let digits := Nat.toDigits 10 decimal.digits
  let leading := decimal.exponent + digits.length - 1
  ((digits.reverse.dropWhile (· = '0')).reverse, leading)

def inPlace (digits : List Char) (leading : Int) : List Char :=
  if leading < 0 then
    '0' :: '.' :: List.replicate (-leading - 1).toNat '0' ++ digits
  else
    let whole := leading.toNat + 1
    let after := digits.drop whole
    (digits.take whole).rightpad whole '0' ++ '.' :: (if after = [] then ['0'] else after)

def withExponent (digits : List Char) (leading : Int) : List Char :=
  let mantissa := match digits with
    | [] => []
    | [digit] => [digit]
    | digit :: rest => digit :: '.' :: rest
  let sign := if leading < 0 then '-' else '+'
  mantissa ++ 'e' :: sign :: (Nat.toDigits 10 leading.natAbs).leftpad 2 '0'

def positive (decimal : Decimal) : List Char :=
  let (digits, leading) := significant decimal
  if -4 ≤ leading ∧ leading < 16 then inPlace digits leading else withExponent digits leading

def write (double : Binary64) : String :=
  let sign (negative : Bool) : String := if negative then "-" else ""
  match double.value with
  | .nan => "nan"
  | .infinite negative => sign negative ++ "inf"
  | .finite negative 0 _ => sign negative ++ "0.0"
  | .finite negative mantissa exponent =>
      sign negative ++ String.ofList (positive (ofFinite mantissa exponent))

end TapeMachine.Binary64
