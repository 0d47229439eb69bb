/-
# Instructions

Eight bytes are instructions. Every other byte of a program is a comment and does nothing.
-/

namespace TapeMachine

inductive Instruction where
  /-- Move the head one cell to the right. -/
  | right
  /-- Move the head one cell to the left. -/
  | left
  /-- Add one to the current cell. -/
  | increment
  /-- Take one from the current cell. -/
  | decrement
  /-- Write the current cell to the output. -/
  | output
  /-- Read a byte into the current cell. -/
  | input
  /-- Skip the loop if the current cell is zero. -/
  | loopStart
  /-- Go round the loop again unless the current cell is zero. -/
  | loopEnd
  deriving DecidableEq

namespace Instruction

def byte : Instruction → UInt8
  | right => 0x3E
  | left => 0x3C
  | increment => 0x2B
  | decrement => 0x2D
  | output => 0x2E
  | input => 0x2C
  | loopStart => 0x5B
  | loopEnd => 0x5D

def ofByte? (byte : UInt8) : Option Instruction :=
  if byte = 0x3E then some right
  else if byte = 0x3C then some left
  else if byte = 0x2B then some increment
  else if byte = 0x2D then some decrement
  else if byte = 0x2E then some output
  else if byte = 0x2C then some input
  else if byte = 0x5B then some loopStart
  else if byte = 0x5D then some loopEnd
  else none

/-- A byte string without its comments. -/
def withoutComments (code : List UInt8) : List UInt8 :=
  code.filter fun byte => (ofByte? byte).isSome

theorem ofByte?_byte (instruction : Instruction) :
    ofByte? instruction.byte = some instruction := by
  cases instruction <;> rfl

theorem byte_of_ofByte? {byte : UInt8} {instruction : Instruction}
    (hsome : ofByte? byte = some instruction) : instruction.byte = byte := by
  grind [ofByte?, Instruction.byte]

theorem ofByte?_eq_some_iff {byte : UInt8} {instruction : Instruction} :
    ofByte? byte = some instruction ↔ byte = instruction.byte :=
  ⟨fun hsome => (byte_of_ofByte? hsome).symm, fun heq => heq ▸ ofByte?_byte instruction⟩

end Instruction

end TapeMachine
