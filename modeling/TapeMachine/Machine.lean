/-
# The machine

A machine is a program with a configuration. Its state is a position in the program, a tape, the
number of instructions executed so far, what is left of the input, what has been written, and the
log.

The position may be put at any integer from outside. The machine has halted once the position is
at least the length of the program, so a negative position has not halted.
-/

import TapeMachine.Channel.Sink
import TapeMachine.Channel.Input
import TapeMachine.Event
import TapeMachine.Tape

namespace TapeMachine

structure Machine where
  program : Program
  config : Config
  deriving DecidableEq

/-- The state of a machine. -/
structure State where
  ip : Int
  tape : Tape
  steps : Nat
  input : Input
  output : Sink
  log : Array Event
  deriving DecidableEq

/-- Why an instruction is not executed. -/
inductive Failure where
  | fault (found : Fault)
  /-- The head stands at no cell. -/
  | cell (error : OutOfBounds)
  /-- A bracket leads nowhere. -/
  | jump (error : TargetError)
  /-- The code has no such position. -/
  | code (error : OutOfBounds)
  | output (error : SinkError)
  deriving DecidableEq

namespace Failure

def message : Failure → String
  | fault found => found.message
  | cell error => error.message
  | jump error => error.message
  | code error => error.byteMessage
  | output error => error.message

def ofTape : TapeError → Failure
  | .fault found => .fault found
  | .outOfBounds error => .cell error

end Failure

/-- What a machine shows of its state. -/
structure Snapshot where
  ip : Int
  head : Int
  /-- The byte about to be executed, unless the machine has halted. -/
  op : Option UInt8
  cell : Nat
  steps : Nat
  deriving DecidableEq

namespace Machine

/-- The state in which a run begins. -/
def initial (machine : Machine) (input : Input) (output : Sink) : State where
  ip := 0
  tape := Tape.blank machine.config.tapeSize
  steps := 0
  input := input
  output := output
  log := #[]

def hasHalted (machine : Machine) (state : State) : Bool :=
  machine.program.code.size ≤ state.ip

/-- The byte about to be executed, unless the machine has halted. -/
def currentOp (machine : Machine) (state : State) : Except Failure (Option UInt8) :=
  if machine.hasHalted state then .ok none
  else
    match machine.program.fetch state.ip with
    | .ok byte => .ok (some byte)
    | .error error => .error (.code error)

def snapshot (machine : Machine) (state : State) : Except Failure Snapshot :=
  match machine.currentOp state, state.tape.read with
  | .error failure, _ => .error failure
  | .ok _, .error error => .error (.cell error)
  | .ok op, .ok cell =>
      .ok { ip := state.ip, head := state.tape.head, op, cell, steps := state.steps }

end Machine

end TapeMachine
