/-
# Inputs

What `,` reads from is a stream, or nothing at all. Where there is nothing to read from, every read
finds the end.
-/

import TapeMachine.Channel.Stream

namespace TapeMachine

abbrev Input := Option Stream

namespace Input

/-- An input of single bytes. -/
def ofBytes (bytes : List UInt8) : Input := some (.ofBytes bytes)

/-- An input with nothing in it. -/
def empty : Input := some .empty

/-- The input of the bytes that are given, if any are. -/
def given (bytes : Option (List UInt8)) : Input := bytes.map .ofBytes

/-- Read one byte, if there is something to read from. -/
def next : Input → Option UInt8 × Input
  | some stream => (stream.next.1, some stream.next.2)
  | none => (none, none)

@[simp]
theorem given_some (bytes : List UInt8) : given (some bytes) = ofBytes bytes := rfl

@[simp]
theorem next_none : next none = (none, none) := rfl

@[simp]
theorem next_empty : empty.next = (none, empty) := rfl

@[simp]
theorem next_ofBytes_cons (byte : UInt8) (bytes : List UInt8) :
    (ofBytes (byte :: bytes)).next = (some byte, ofBytes bytes) := rfl

theorem ofBytes_inj {first second : List UInt8} (heq : ofBytes first = ofBytes second) :
    first = second := by
  have hchunks := congrArg Stream.chunks (Option.some.inj heq)
  exact (List.map_inj_right fun _ _ hsingle => (List.cons.inj hsingle).1).mp hchunks

end Input

end TapeMachine
