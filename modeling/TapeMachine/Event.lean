/-
# Events

What is worth a line in a log. Each kind of event has its severity and belongs to the loader or to
the machine.
-/

import TapeMachine.Fault
import TapeMachine.Program

namespace TapeMachine

inductive Severity where
  | debug
  | info
  | warning
  deriving DecidableEq

namespace Severity

def name : Severity → String
  | debug => "DEBUG"
  | info => "INFO"
  | warning => "WARNING"

def rank : Severity → Nat
  | debug => 0
  | info => 1
  | warning => 2

end Severity

inductive Event where
  | loaded (bytes pairs : Nat)
  /-- A cell that does not fit in a byte was not written. -/
  | skippedOutput (value : Nat) (ip : Int)
  | faulted (fault : Fault)
  | halted (steps : Nat)
  deriving DecidableEq

namespace Event

def severity : Event → Severity
  | faulted _ => .info
  | loaded .. | skippedOutput .. | halted _ => .debug

/-- The part of the program that an event belongs to. -/
def origin : Event → String
  | loaded .. => "bfvm.loader"
  | skippedOutput .. | faulted _ | halted _ => "bfvm.vm"

def message : Event → String
  | loaded bytes pairs => s!"loaded program: {bytes} bytes, {pairs} bracket pairs"
  | skippedOutput value ip =>
      s!"skipping output of {value} at ip {ip}: does not fit in a byte"
  | faulted fault => s!"fault {fault.kind.name} at {fault.describe}: {fault.message}"
  | halted steps => s!"halted after {steps} steps"

/-- The line of an event in a log. -/
def line (event : Event) : String :=
  s!"{event.severity.name} {event.origin}: {event.message}"

/-- The event of having loaded a program. -/
def ofProgram (program : Program) : Event :=
  loaded program.code.size program.pairCount

end Event

end TapeMachine
