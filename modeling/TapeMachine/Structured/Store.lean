/-
# Stores

What a structured program works on: cells of which one is current, input still to be read, and
output. A store has no position in a program, and its head is always at a cell that it names
plainly. The rules of single bytes are given case by case, with no arithmetic modulo a width.
-/

import TapeMachine.Config
import TapeMachine.Fault
import TapeMachine.Program.Instruction

namespace TapeMachine.Structured

structure Store where
  cells : List Nat
  head : Nat
  input : List UInt8
  output : List UInt8
  deriving DecidableEq

namespace Store

def blank (size : Nat) (input : List UInt8) : Store where
  cells := List.replicate size 0
  head := 0
  input := input
  output := []

/-- The current cell. -/
def current (store : Store) : Nat := store.cells.getD store.head 0

def put (store : Store) (value : Nat) : Store :=
  { store with cells := store.cells.set store.head value }

def right (store : Store) : Except FaultKind Store :=
  if store.head + 1 < store.cells.length then .ok { store with head := store.head + 1 }
  else .error .headOverflow

def left (store : Store) : Except FaultKind Store :=
  match store.head with
  | 0 => .error .headUnderflow
  | head + 1 => .ok { store with head }

def increment (config : Config) (store : Store) : Except FaultKind Store :=
  if store.current < config.width.largest then .ok (store.put (store.current + 1))
  else
    match config.overflow with
    | .wrap => .ok (store.put 0)
    | .trap => .error .dataOverflow

def decrement (config : Config) (store : Store) : Except FaultKind Store :=
  match store.current, config.underflow with
  | value + 1, _ => .ok (store.put value)
  | 0, .wrap => .ok (store.put config.width.largest)
  | 0, .trap => .error .dataUnderflow

/-- A value that is no byte leaves the output as it is. -/
def emit (store : Store) : Store :=
  if store.current < 256 then
    { store with output := store.output ++ [UInt8.ofNat store.current] }
  else
    store

def receive (config : Config) (store : Store) : Except FaultKind Store :=
  match store.input, config.atEnd with
  | byte :: input, _ => .ok { store.put byte.toNat with input }
  | [], .zero => .ok (store.put 0)
  | [], .keep => .ok store
  | [], .fault => .error .inputExhausted

/-- The effect of a byte that is no bracket. -/
def effect (config : Config) (byte : UInt8) (store : Store) : Except FaultKind Store :=
  match Instruction.ofByte? byte with
  | some .right => store.right
  | some .left => store.left
  | some .increment => store.increment config
  | some .decrement => store.decrement config
  | some .output => .ok store.emit
  | some .input => store.receive config
  | _ => .ok store

end Store

end TapeMachine.Structured
