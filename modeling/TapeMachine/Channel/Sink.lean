/-
# Output sinks

A sink takes bytes one at a time, and each is flushed. A sink can be set to fail: then all of its
writes, or all of its flushes, fail once a given number of them has succeeded. A byte whose flush
fails has been taken.
-/

import TapeMachine.Attempt
import TapeMachine.SystemError

namespace TapeMachine

/-- Why a sink fails: an error of the system, by its number, or one that only has a text. -/
inductive SinkError where
  | system (number : Int)
  | other (text : String)
  deriving DecidableEq

namespace SinkError

/-- The reason by itself. -/
def reason : SinkError → String
  | system number => SystemError.text number
  | other text => text

def message (error : SinkError) : String :=
  match error with
  | system number => s!"[Errno {number}] {error.reason}"
  | other text => text

end SinkError

inductive SinkCall where
  | write
  | flush
  deriving DecidableEq

/-- The calls of one kind fail once `after` of them have succeeded. -/
structure SinkFailure where
  call : SinkCall
  after : Nat
  error : SinkError
  deriving DecidableEq

structure Sink where
  /-- The bytes taken so far. -/
  bytes : Array UInt8
  /-- How many flushes have succeeded. -/
  flushes : Nat
  failure : Option SinkFailure
  deriving DecidableEq

namespace Sink

def empty (failure : Option SinkFailure) : Sink := ⟨#[], 0, failure⟩

/-- The error that a call meets when `count` calls of its kind have succeeded. -/
def error? (sink : Sink) (call : SinkCall) (count : Nat) : Option SinkError :=
  match sink.failure with
  | some failure =>
      if failure.call = call ∧ failure.after ≤ count then some failure.error else none
  | none => none

def write (byte : UInt8) (sink : Sink) : Attempt SinkError Sink Unit :=
  match sink.error? .write sink.bytes.size with
  | some error => .refused error sink
  | none => .done () { sink with bytes := sink.bytes.push byte }

def flush (sink : Sink) : Attempt SinkError Sink Unit :=
  match sink.error? .flush sink.flushes with
  | some error => .refused error sink
  | none => .done () { sink with flushes := sink.flushes + 1 }

/-- Write a byte and flush it. -/
def emit (byte : UInt8) (sink : Sink) : Attempt SinkError Sink Unit :=
  match sink.write byte with
  | .done _ sink => sink.flush
  | .refused error sink => .refused error sink

end Sink

end TapeMachine
