/-
# Actions on an interpreter

Everything that can be done to an interpreter from outside, as data, so that sequences of actions
can be spoken of.
-/

import TapeMachine.Interpreter

namespace TapeMachine.Interpreter

inductive Action where
  /-- Run the program for at most `fuel` steps. -/
  | run (fuel : Nat)
  /-- Execute at most `times` instructions of the program outside a run. -/
  | next (times : Nat)
  /-- Execute a byte outside a run. -/
  | execute (byte : UInt8)
  /-- Put the position anywhere, without a check. -/
  | setIp (ip : Int)
  | onTape (command : Tape.Command)
  /-- Change nothing. -/
  | rest
  deriving DecidableEq

/-- What an action answers. -/
inductive Answer where
  | nothing
  | trace (places : Array Trace)
  | reply (reply : Tape.Reply)
  deriving DecidableEq

/-- Why an action is refused. -/
inductive ActionError where
  | run (error : RunError)
  | instruction (reason : Failure)
  | command (error : Tape.CommandError)
  deriving DecidableEq

def perform (action : Action) (interpreter : Interpreter) :
    Attempt ActionError Interpreter Answer :=
  match action with
  | .run fuel =>
      match interpreter.run fuel with
      | .done _ interpreter => .done .nothing interpreter
      | .refused error interpreter => .refused (.run error) interpreter
  | .next times =>
      match interpreter.next times with
      | .done places interpreter => .done (.trace places) interpreter
      | .refused reason interpreter => .refused (.instruction reason) interpreter
  | .execute byte =>
      match interpreter.execute byte with
      | .done _ interpreter => .done .nothing interpreter
      | .refused reason interpreter => .refused (.instruction reason) interpreter
  | .setIp ip => .done .nothing (interpreter.setIp ip)
  | .onTape command =>
      match interpreter.onTape command with
      | .done reply interpreter => .done (.reply reply) interpreter
      | .refused error interpreter => .refused (.command error) interpreter
  | .rest => .done .nothing interpreter

end TapeMachine.Interpreter
