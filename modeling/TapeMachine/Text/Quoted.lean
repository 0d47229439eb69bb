/-
# Quoted text

A quoted text stands between single quotes, or between double quotes when it holds a single quote
and no double quote. The backslash and the quote in use are escaped, as are line feed, carriage
return and tab; every other character that does not print is written as its code point in
hexadecimal: two, four or eight digits, the fewest of these that hold it.
-/

import TapeMachine.Text.Printable

namespace TapeMachine.Quoted

/-- A number in lower-case hexadecimal with at least `width` digits. -/
def hexadecimal (width value : Nat) : List Char :=
  (Nat.toDigits 16 value).leftpad width '0'

/-- A code point by its number. -/
def byNumber (value : Nat) : List Char :=
  if value ≤ 0xFF then '\\' :: 'x' :: hexadecimal 2 value
  else if value ≤ 0xFFFF then '\\' :: 'u' :: hexadecimal 4 value
  else '\\' :: 'U' :: hexadecimal 8 value

/-- One character of a text between two `mark`s. -/
def escape (mark char : Char) : List Char :=
  if char = '\\' || char = mark then ['\\', char]
  else if char = '\n' then ['\\', 'n']
  else if char = '\r' then ['\\', 'r']
  else if char = '\t' then ['\\', 't']
  else if Printable.isPrintable char then [char]
  else byNumber char.toNat

/-- The quote that a text is written between. -/
def mark (text : List Char) : Char :=
  if text.contains '\'' && !text.contains '"' then '"' else '\''

def quote (text : String) : String :=
  let chars := text.toList
  let mark := mark chars
  String.ofList (mark :: (chars.flatMap (escape mark) ++ [mark]))

end TapeMachine.Quoted
