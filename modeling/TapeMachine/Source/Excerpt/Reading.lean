/-
# Reading excerpts

An excerpt is read one row a line. A row begins with a mark or a blank, and behind one more blank
and any number of others comes its label, which ends in an upright stroke and a blank. The label of
a line is its number and a blank, and the line itself is what stands behind it. A row without a mark
and without a number is that of a caret, and has nothing but blanks in front of the caret. A text
with another row in it is not read at all.
-/

namespace TapeMachine.Excerpt

/-- What a row of an excerpt says. -/
inductive Row where
  /-- A line behind its number. -/
  | line (marked : Bool) (number : Nat) (text : List Char)
  /-- A caret behind some blanks. -/
  | caret (blanks : Nat)
  deriving DecidableEq

namespace Row

/-- The line that a row shows, and its number. -/
def line? : Row → Option (List Char × Nat)
  | line _ number text => some (text, number)
  | caret _ => none

def isMarked : Row → Bool
  | line marked _ _ => marked
  | caret _ => false

def isCaret : Row → Bool
  | line .. => false
  | caret _ => true

end Row

/-- Read a line from its label on. -/
def readLine? (marked : Bool) (label : List Char) : Option Row :=
  match label.dropWhile Char.isDigit with
  | ' ' :: '|' :: ' ' :: text =>
      some (.line marked (Nat.ofDigitChars 10 (label.takeWhile Char.isDigit) 0) text)
  | _ => none

/-- Read a caret from its label on. -/
def readCaret? : List Char → Option Row
  | '|' :: ' ' :: text =>
      if text.dropWhile (· = ' ') = ['^'] then some (.caret (text.takeWhile (· = ' ')).length)
      else none
  | _ => none

def readRow? : List Char → Option Row
  | '>' :: ' ' :: rest => readLine? true (rest.dropWhile (· = ' '))
  | ' ' :: ' ' :: rest =>
      let label := rest.dropWhile (· = ' ')
      readCaret? label <|> readLine? false label
  | _ => none

/-- The rows of an excerpt. -/
def read? (text : String) : Option (List Row) :=
  (text.toList.splitOn '\n').mapM readRow?

end TapeMachine.Excerpt
