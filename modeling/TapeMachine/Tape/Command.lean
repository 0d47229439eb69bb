/-
# Tape commands

The operations on a tape as data, so that sequences of them can be spoken of.
-/

import TapeMachine.Tape.Dump

namespace TapeMachine

namespace Tape

inductive Command where
  | right
  | left
  | increment
  | decrement
  | read
  | size
  | write (value : Int)
  /-- Put the head anywhere, without a check. -/
  | setHead (head : Int)
  | dump (count : Option Int) (perRow : Int)
  deriving DecidableEq

/-- What a command answers. -/
inductive Reply where
  | nothing
  | number (value : Nat)
  | text (value : String)
  deriving DecidableEq

/-- Why a command is refused. -/
inductive CommandError where
  | tape (error : TapeError)
  | dump (error : DumpError)
  deriving DecidableEq

/-- The answer of an operation that gives none. -/
def silently : Attempt TapeError Tape Unit → Attempt CommandError Tape Reply
  | .done _ tape => .done .nothing tape
  | .refused reason tape => .refused (.tape reason) tape

def perform (config : Config) (command : Command) (tape : Tape) :
    Attempt CommandError Tape Reply :=
  match command with
  | .right => silently tape.right
  | .left => silently tape.left
  | .increment => silently (tape.increment config)
  | .decrement => silently (tape.decrement config)
  | .read =>
      match tape.read with
      | .ok value => .done (.number value) tape
      | .error error => .refused (.tape (.outOfBounds error)) tape
  | .size => .done (.number tape.size) tape
  | .write value => silently (tape.write config.width value)
  | .setHead head => .done .nothing { tape with head }
  | .dump count perRow =>
      match tape.dump count perRow with
      | .ok text => .done (.text text) tape
      | .error error => .refused (.dump error) tape

/-- Repeat a command until it is refused. The answer is that of the last time. -/
def performTimes (config : Config) (command : Command) :
    Nat → Reply → Tape → Attempt CommandError Tape Reply
  | 0, reply, tape => .done reply tape
  | times + 1, _, tape =>
      match perform config command tape with
      | .done reply tape => performTimes config command times reply tape
      | .refused reason tape => .refused reason tape

end Tape

end TapeMachine
