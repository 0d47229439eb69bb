/-
# Drift

What code without loops, input and output does to a tape, told from where the head stands before
it: how far it takes the head, and what it adds to the cell at each offset from there. This is a
matter of the code alone. Neither the values of the cells nor the ends of the tape come into it.
-/

import TapeMachine.Program.Instruction

namespace TapeMachine.Drift

/-- Whether a byte moves the head, changes the current cell, or is a comment. -/
def worksOnTape (byte : UInt8) : Bool :=
  match Instruction.ofByte? byte with
  | some .right | some .left | some .increment | some .decrement | none => true
  | some .output | some .input | some .loopStart | some .loopEnd => false

/-- How far a byte takes the head to the right. -/
def stride (byte : UInt8) : Int :=
  match Instruction.ofByte? byte with
  | some .right => 1
  | some .left => -1
  | _ => 0

/-- What a byte adds to the current cell. -/
def amount (byte : UInt8) : Int :=
  match Instruction.ofByte? byte with
  | some .increment => 1
  | some .decrement => -1
  | _ => 0

/-- How far code takes the head to the right. -/
def shift : List UInt8 → Int
  | [] => 0
  | byte :: rest => stride byte + shift rest

/-- An amount at the head and nothing elsewhere. -/
def atHead (amount offset : Int) : Int := if offset = 0 then amount else 0

/-- What code adds to the cell at an offset from the head. -/
def change : List UInt8 → Int → Int
  | [], _ => 0
  | byte :: rest, offset => atHead (amount byte) offset + change rest (offset - stride byte)

end TapeMachine.Drift
