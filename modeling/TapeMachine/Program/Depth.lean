/-
# Bracket depth

The partner of a bracket, found at run time: count the depth of the brackets forwards or
backwards from it until the depth is zero again. Nothing is remembered from one bracket to the
next, so this is slow, and it is another road to the partners than pairing them in one pass.
-/

import TapeMachine.Program.Instruction

namespace TapeMachine.Depth

/-- What a byte adds to the depth when it is read forwards. -/
def delta (byte : UInt8) : Int :=
  if byte = Instruction.loopStart.byte then 1
  else if byte = Instruction.loopEnd.byte then -1
  else 0

/-- The depth behind a byte string. -/
def depth : List UInt8 → Int
  | [] => 0
  | byte :: rest => delta byte + depth rest

/-- How many bytes are read until the depth, which is `start` before them, is zero. -/
def returnsAfter (change : UInt8 → Int) (start : Int) : List UInt8 → Option Nat
  | [] => none
  | byte :: rest =>
      let now := start + change byte
      if now = 0 then some 1 else (returnsAfter change now rest).map (· + 1)

/-- The partner of the opening bracket at a position, counted forwards. -/
def closer? (code : List UInt8) (position : Nat) : Option Nat :=
  (returnsAfter delta 1 (code.drop (position + 1))).map (position + ·)

/-- The partner of the closing bracket at a position, counted backwards. -/
def opener? (code : List UInt8) (position : Nat) : Option Nat :=
  (returnsAfter (fun byte => -delta byte) 1 (code.take position).reverse).map (position - ·)

end TapeMachine.Depth
