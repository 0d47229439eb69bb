/-
# Balanced programs

The programs whose brackets all have a partner, by a grammar: nothing; a byte that is no bracket
and then a balanced program; or a balanced program between two brackets and then another one.
The grammar knows nothing of positions, stacks or tables.
-/

import TapeMachine.Program.Instruction

namespace TapeMachine

/-- Whether a byte is an opening or a closing bracket. -/
def isBracket (byte : UInt8) : Bool :=
  byte = Instruction.loopStart.byte || byte = Instruction.loopEnd.byte

/-- A byte string whose brackets are balanced. -/
inductive Balanced : List UInt8 → Prop where
  | nil : Balanced []
  | leaf {byte : UInt8} {rest : List UInt8} (hleaf : isBracket byte = false)
      (hrest : Balanced rest) : Balanced (byte :: rest)
  | loop {body rest : List UInt8} (hbody : Balanced body) (hrest : Balanced rest) :
      Balanced (Instruction.loopStart.byte :: (body ++ Instruction.loopEnd.byte :: rest))

namespace Balanced

theorem append {first second : List UInt8} (hfirst : Balanced first)
    (hsecond : Balanced second) : Balanced (first ++ second) := by
  induction hfirst with
  | nil => exact hsecond
  | leaf hleaf _ ih => exact .leaf hleaf ih
  | loop hbody _ _ ih =>
      simpa [List.append_assoc] using Balanced.loop hbody ih

end Balanced

end TapeMachine
