/-
# Executions

An execution loads a program and runs it once on a fresh tape, with all of its input at hand and
its output collected. A fault is part of its report. Whatever keeps the program from being run at
all is an error.
-/

import TapeMachine.Config.Settings
import TapeMachine.File.Program
import TapeMachine.Interpreter
import TapeMachine.Program.Load

namespace TapeMachine

/-- What an execution reports when its run has ended. -/
structure Report where
  output : List UInt8
  fault : Option Fault
  snapshot : Snapshot
  deriving DecidableEq

/-- Whether the program has halted. -/
def Report.ok (report : Report) : Bool := report.fault.isNone

inductive ExecutionError where
  | settings (error : SettingsError)
  | read (error : ReadError)
  | load (error : LoadError)
  | build (error : BuildError)
  /-- The run ended with something else than a fault. -/
  | run (error : RunError)
  /-- The run did not end within its number of steps. -/
  | unfinished
  deriving DecidableEq

namespace Execution

/-- The report on an interpreter whose run has ended. -/
def report (interpreter : Interpreter) (fault : Option Fault) : Except ExecutionError Report :=
  match interpreter.snapshot with
  | .ok snapshot => .ok { output := interpreter.state.output.bytes.toList, fault, snapshot }
  | .error reason => .error (.run (.failure reason))

/-- Run a program for at most `fuel` steps. -/
def runProgram (program : Program) (config : Config) (input : Option (List UInt8)) (fuel : Nat) :
    Except ExecutionError Report :=
  match (Interpreter.new program config (.given input) (.empty none)).run fuel with
  | .done .halted interpreter => report interpreter none
  | .done .unfinished _ => .error .unfinished
  | .refused (.failure (.fault fault)) interpreter => report interpreter (some fault)
  | .refused error _ => .error (.run error)

/-- Load a source and run it with settings that have been accepted. -/
def runSource (host : Host) (source : Source) (accepted : Accepted)
    (input : Option (List UInt8)) (fuel : Nat) : Except ExecutionError Report :=
  match Program.load source .utf8 with
  | .error error => .error (.load error)
  | .ok program =>
      match accepted.config host with
      | .error error => .error (.build error)
      | .ok config => runProgram program config input fuel

/-- Read, load and run a program file with settings that have been accepted. -/
def runFile (host : Host) (files : FileSystem) (path : String) (accepted : Accepted)
    (input : Option (List UInt8)) (fuel : Nat) : Except ExecutionError Report :=
  match ProgramFile.read files path ProgramFile.sizeLimit with
  | .error error => .error (.read error)
  | .ok bytes => runSource host (.bytes bytes) accepted input fuel

end Execution

end TapeMachine
