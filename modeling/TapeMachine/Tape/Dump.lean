/-
# Dumps

A dump shows the first cells of a tape in rows. A row begins with the index of its first cell,
right-aligned in five columns.
-/

import TapeMachine.Tape

namespace TapeMachine.Dump

/-- The values that a dump shows: all before a signed cut, or all there are. -/
def selection (cells : Array Nat) (count : Option Int) : Array Nat :=
  match count with
  | some count => cells.extract 0 (Index.cut cells.size count)
  | none => cells

/-- The index of the first cell of a row. -/
def label (index : Nat) : List Char :=
  (Nat.toDigits 10 index).leftpad 5 ' '

def row (index : Nat) (values : List Nat) : List Char :=
  label index ++ ':' :: ' ' :: List.intercalate [' '] (values.map (Nat.toDigits 10))

/-- The rows of some values, `perRow` to a row. -/
def rows (perRow : Nat) (values : Array Nat) : List (List Char) :=
  (List.range ((values.size + perRow - 1) / perRow)).map fun number =>
    let first := number * perRow
    row first (values.extract first (first + perRow)).toList

end Dump

/-- A dump needs rows of some length. -/
inductive DumpError where
  | emptyRows
  deriving DecidableEq

namespace DumpError

def message : DumpError → String
  | emptyRows => "range() arg 3 must not be zero"

end DumpError

/-- The text of a dump. Rows of negative length show nothing. -/
def Tape.dump (tape : Tape) (count : Option Int) (perRow : Int) : Except DumpError String :=
  if perRow = 0 then .error .emptyRows
  else if perRow < 0 then .ok ""
  else
    let rows := Dump.rows perRow.toNat (Dump.selection tape.cells count)
    .ok (String.ofList (List.intercalate ['\n'] rows))

end TapeMachine
