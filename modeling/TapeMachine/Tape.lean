/-
# The tape

A tape is a row of cells and a head that stands at one of them. Only the cell at the head is read
or written. A cell keeps a value of its width; what does not fit is reduced when it is stored.

The head may be put at any integer from outside. It then names a cell as a signed position does,
or none, and reading fails.
-/

import TapeMachine.Attempt
import TapeMachine.Config
import TapeMachine.Fault
import TapeMachine.Index

namespace TapeMachine

structure Tape where
  cells : Array Nat
  head : Int
  deriving DecidableEq

/-- Why the tape refuses an operation. -/
inductive TapeError where
  | fault (fault : Fault)
  /-- The head stands at no cell. -/
  | outOfBounds (error : OutOfBounds)
  deriving DecidableEq

namespace Tape

/-- A tape of zeros with its head at the first cell. -/
def blank (size : Nat) : Tape where
  cells := Array.replicate size 0
  head := 0

def size (tape : Tape) : Nat := tape.cells.size

/-- The cell at the head. -/
def read (tape : Tape) : Except OutOfBounds Nat :=
  match Index.resolve tape.cells.size tape.head with
  | some index => .ok tape.cells[index]
  | none => .error ⟨tape.head, tape.cells.size⟩

/-- Store a value in the cell at the head. -/
def write (width : Width) (value : Int) (tape : Tape) : Attempt TapeError Tape Unit :=
  match Index.resolve tape.cells.size tape.head with
  | some index => .done () { tape with cells := tape.cells.set index (width.wrap value) }
  | none => .refused (.outOfBounds ⟨tape.head, tape.cells.size⟩) tape

/-- Refuse with a fault that shows the cell at the head. If there is none, that is the reason. -/
def refuse (fault : Int → Nat → Fault) (tape : Tape) : Attempt TapeError Tape Unit :=
  match tape.read with
  | .ok cell => .refused (.fault (fault tape.head cell)) tape
  | .error error => .refused (.outOfBounds error) tape

def right (tape : Tape) : Attempt TapeError Tape Unit :=
  if (tape.cells.size : Int) - 1 ≤ tape.head then
    tape.refuse (Fault.headOverflow tape.cells.size)
  else
    .done () { tape with head := tape.head + 1 }

def left (tape : Tape) : Attempt TapeError Tape Unit :=
  if tape.head = 0 then
    tape.refuse Fault.headUnderflow
  else
    .done () { tape with head := tape.head - 1 }

def increment (config : Config) (tape : Tape) : Attempt TapeError Tape Unit :=
  match tape.read with
  | .error error => .refused (.outOfBounds error) tape
  | .ok value =>
      if value = config.width.largest ∧ config.overflow = .trap then
        .refused (.fault (Fault.dataOverflow config.width.largest tape.head value)) tape
      else
        tape.write config.width (value + 1)

def decrement (config : Config) (tape : Tape) : Attempt TapeError Tape Unit :=
  match tape.read with
  | .error error => .refused (.outOfBounds error) tape
  | .ok value =>
      if value = 0 ∧ config.underflow = .trap then
        .refused (.fault (Fault.dataUnderflow tape.head value)) tape
      else
        tape.write config.width (value - 1)

/-- The cells that are not zero, in order, each with its index. -/
def nonzero (tape : Tape) : List (Nat × Nat) :=
  (tape.cells.toList.zipIdx.filter (·.1 ≠ 0)).map fun (value, index) => (index, value)

end Tape

end TapeMachine
