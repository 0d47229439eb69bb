/-
# Numerals

An integer is read from a word that may stand between blanks: a sign, then decimal digits of any
script with single underscores between them. Leading zeros are allowed, and no more than 4300
digits are read. An integer of more digits is not written either.
-/

import TapeMachine.Text.Blank
import TapeMachine.Text.Digit

namespace TapeMachine.Numeral

def trim (word : List Char) : List Char :=
  ((word.dropWhile Blank.isBlank).reverse.dropWhile Blank.isBlank).reverse

/-- The longest numeral that is read or written, in digits. -/
def digitLimit : Nat := 4300

/-- The digits of a numeral without its sign. An underscore stands between two digits. -/
def digits? : List Char → Option (List Nat)
  | [] => none
  | [char] => (Digit.value? char).map ([·])
  | char :: '_' :: rest => do
      let digit ← Digit.value? char
      return digit :: (← digits? rest)
  | char :: rest => do
      let digit ← Digit.value? char
      return digit :: (← digits? rest)

def natural? (word : List Char) : Option Nat := do
  let digits ← digits? word
  if digits.length ≤ digitLimit then
    return digits.foldl (fun value digit => value * 10 + digit) 0
  else
    none

/-- The integer that a word spells. -/
def integer? (word : String) : Option Int :=
  match trim word.toList with
  | '-' :: rest => (natural? rest).map fun value => -Int.ofNat value
  | '+' :: rest => (natural? rest).map Int.ofNat
  | rest => (natural? rest).map Int.ofNat

/-- Whether the numeral of an integer has few enough digits. -/
def isShort (value : Int) : Bool := (Nat.toDigits 10 value.natAbs).length ≤ digitLimit

/-- The numeral of an integer. -/
def write? (value : Int) : Option String :=
  if isShort value then some (toString value) else none

end TapeMachine.Numeral
