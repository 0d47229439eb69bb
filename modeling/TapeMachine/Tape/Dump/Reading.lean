/-
# Reading dumps

A dump is read one row a line. A line is cut at its first colon. In front of it is the label of the
row, behind any number of blanks. Behind it and one more blank are the values, with one blank
between two of them. Labels and values are words of decimal digits. A text with another line in it
is not read at all.
-/

namespace TapeMachine.Dump

/-- What a row of a dump says: from which cell on it shows values, and which ones. -/
structure Row where
  label : Nat
  values : List Nat
  deriving DecidableEq

/-- The number that a word of decimal digits spells. -/
def number? (word : List Char) : Option Nat :=
  if word ≠ [] ∧ word.all Char.isDigit = true then some (Nat.ofDigitChars 10 word 0) else none

def readRow? (line : List Char) : Option Row :=
  match line.dropWhile (· ≠ ':') with
  | ':' :: ' ' :: values => do
      let label ← number? ((line.takeWhile (· ≠ ':')).dropWhile (· = ' '))
      return { label, values := ← (values.splitOn ' ').mapM number? }
  | _ => none

/-- The rows of a dump. An empty text has none. -/
def read? (text : String) : Option (List Row) :=
  if text = "" then some [] else (text.toList.splitOn '\n').mapM readRow?

end TapeMachine.Dump
