/-
# Programs

A program is its code and a jump table, which holds for a position the one to jump to. Loading
fills the table with the partners of the brackets. A table that is made by hand may hold anything,
have another length than the code, and name positions outside it.
-/

import TapeMachine.Index
import TapeMachine.Program.Instruction

namespace TapeMachine

structure Program where
  code : Array UInt8
  jumps : Array (Option Int)
  deriving DecidableEq

/-- Why a position has no jump target. -/
inductive TargetError where
  /-- The table has no such position. -/
  | outOfBounds (error : OutOfBounds)
  /-- The table holds no target for it. -/
  | noTarget (position : Int)
  deriving DecidableEq

namespace TargetError

def message : TargetError → String
  | outOfBounds error => error.message
  | noTarget position => s!"no jump target recorded for position {position}"

end TargetError

namespace Program

/-- The byte at a signed position. -/
def fetch (program : Program) (position : Int) : Except OutOfBounds UInt8 :=
  match Index.resolve program.code.size position with
  | some index => .ok program.code[index]
  | none => .error ⟨position, program.code.size⟩

/-- Where a jump from a signed position leads. -/
def target (program : Program) (position : Int) : Except TargetError Int :=
  match Index.resolve program.jumps.size position with
  | none => .error (.outOfBounds ⟨position, program.jumps.size⟩)
  | some index =>
      match program.jumps[index] with
      | some destination => .ok destination
      | none => .error (.noTarget position)

/-- The pair that starts at a position, if an opening bracket with a target stands there. -/
def pairFrom (program : Program) (position : Nat) : Except OutOfBounds (Option (Nat × Int)) :=
  match program.jumps[position]? with
  | some (some destination) =>
      match program.fetch position with
      | .error error => .error error
      | .ok byte =>
          if Instruction.ofByte? byte = some .loopStart then .ok (some (position, destination))
          else .ok none
  | _ => .ok none

/-- The opening brackets with a target, in order, each with its target. The byte of every target is
looked up, also where the table goes on behind the code. -/
def pairs (program : Program) : Except OutOfBounds (List (Nat × Int)) :=
  (List.range program.jumps.size).filterMapM program.pairFrom

/-- How many pairs of brackets a table has room for: half its targets. -/
def pairCount (program : Program) : Nat :=
  program.jumps.countP Option.isSome / 2

end Program

end TapeMachine
