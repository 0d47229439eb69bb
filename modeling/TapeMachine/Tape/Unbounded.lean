/-
# Tapes of integers

A tape whose cells hold any integer. Nothing wraps and nothing traps; the only bound is that the
head stays on the cells. It is what a tape of some width is an image of.
-/

import TapeMachine.Config

namespace TapeMachine

structure IntegerTape where
  cells : List Int
  head : Nat
  deriving DecidableEq

namespace IntegerTape

inductive Move where
  | right
  | left
  | increment
  | decrement
  | write (value : Int)
  deriving DecidableEq

def blank (size : Nat) : IntegerTape := ⟨List.replicate size 0, 0⟩

def change (tape : IntegerTape) (update : Int → Int) : IntegerTape :=
  { tape with cells := tape.cells.modify tape.head update }

/-- The tape after a move, unless the head would leave the cells. -/
def move? (tape : IntegerTape) : Move → Option IntegerTape
  | .right =>
      if tape.head + 1 < tape.cells.length then some { tape with head := tape.head + 1 } else none
  | .left =>
      match tape.head with
      | 0 => none
      | head + 1 => some { tape with head }
  | .increment => some (tape.change (· + 1))
  | .decrement => some (tape.change (· - 1))
  | .write value => some (tape.change fun _ => value)

end IntegerTape

end TapeMachine
