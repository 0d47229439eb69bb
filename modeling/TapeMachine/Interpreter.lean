/-
# Interpreters

An interpreter is a machine in some state that can be run once. Single instructions can be
executed, and the position and the tape changed, before and after the run.
-/

import TapeMachine.Machine.Run
import TapeMachine.Tape.Command

namespace TapeMachine

structure Interpreter where
  machine : Machine
  state : State
  /-- The run has been started. -/
  spent : Bool
  deriving DecidableEq

/-- Why a run is refused or ends early. -/
inductive RunError where
  | spent
  | failure (reason : Failure)
  deriving DecidableEq

namespace RunError

def message : RunError → String
  | spent => "interpreter has already run; load the program into a new one"
  | failure reason => reason.message

end RunError

/-- Whether a run has ended within its number of steps. -/
inductive Ending where
  | halted
  | unfinished
  deriving DecidableEq

namespace Interpreter

/-- An interpreter before its run, with a blank tape. -/
def new (program : Program) (config : Config) (input : Input) (output : Sink) :
    Interpreter where
  machine := { program, config }
  state := Machine.initial { program, config } input output
  spent := false

/-- Take a run that has been started further, by at most `fuel` steps. -/
def resume (fuel : Nat) : Interpreter → Attempt RunError Interpreter Ending
  | { machine, state, spent } =>
      match machine.conclude (machine.advance fuel state) with
      | .running state => .done .unfinished { machine, state, spent }
      | .halted state => .done .halted { machine, state, spent }
      | .failed reason state => .refused (.failure reason) { machine, state, spent }

/-- Run the program, for at most `fuel` steps. A program without code cannot be run, and asking
for it uses up the run. -/
def run (fuel : Nat) (interpreter : Interpreter) : Attempt RunError Interpreter Ending :=
  if interpreter.spent then .refused .spent interpreter
  else if interpreter.machine.program.code.size = 0 then
    let reason : Failure := match interpreter.state.tape.read with
      | .ok cell => .fault (Fault.emptyProgram cell)
      | .error error => .cell error
    .refused (.failure reason) { interpreter with spent := true }
  else
    resume fuel { interpreter with spent := true }

/-- Execute one byte outside a run. -/
def execute (byte : UInt8) : Interpreter → Attempt Failure Interpreter Unit
  | { machine, state, spent } =>
      match machine.execute byte state with
      | .done _ state => .done () { machine, state, spent }
      | .refused reason state => .refused reason { machine, state, spent }

/-- Where an interpreter stands: position, head and current cell. -/
structure Trace where
  ip : Int
  head : Int
  cell : Nat
  deriving DecidableEq

/-- Execute at most `times` instructions of the program outside a run, and add to `places` where
the interpreter stands after each. -/
def walk (times : Nat) (places : Array Trace) :
    Interpreter → Attempt Failure Interpreter (Array Trace)
  | { machine, state, spent } =>
      if machine.hasHalted state then .done places { machine, state, spent }
      else
        match times with
        | 0 => .done places { machine, state, spent }
        | times + 1 =>
            match machine.executeNext state with
            | .refused reason state => .refused reason { machine, state, spent }
            | .done _ state =>
                match state.tape.read with
                | .error error => .refused (.cell error) { machine, state, spent }
                | .ok cell =>
                    walk times (places.push ⟨state.ip, state.tape.head, cell⟩)
                      { machine, state, spent }

/-- Execute at most `times` instructions of the program outside a run, and tell where the
interpreter stands after each. If one is refused, the places before it are not told. -/
def next (times : Nat) (interpreter : Interpreter) :
    Attempt Failure Interpreter (Array Trace) :=
  interpreter.walk times #[]

/-- Perform a command on the tape. -/
def onTape (command : Tape.Command) :
    Interpreter → Attempt Tape.CommandError Interpreter Tape.Reply
  | { machine, state := ⟨ip, tape, steps, input, output, log⟩, spent } =>
      match Tape.perform machine.config command tape with
      | .done reply tape =>
          .done reply { machine, state := ⟨ip, tape, steps, input, output, log⟩, spent }
      | .refused reason tape =>
          .refused reason { machine, state := ⟨ip, tape, steps, input, output, log⟩, spent }

/-- Put the position anywhere, without a check. -/
def setIp (ip : Int) (interpreter : Interpreter) : Interpreter :=
  { interpreter with state := { interpreter.state with ip } }

def snapshot (interpreter : Interpreter) : Except Failure Snapshot :=
  interpreter.machine.snapshot interpreter.state

def hasHalted (interpreter : Interpreter) : Bool :=
  interpreter.machine.hasHalted interpreter.state

end Interpreter

end TapeMachine
