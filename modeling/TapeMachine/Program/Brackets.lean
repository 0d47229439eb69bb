/-
# Matching brackets

One pass over a program pairs every bracket with its partner. The openers that still wait for a
partner stand on a stack, the innermost first, and a closer takes the first of them. The pass
stops at the first closer that finds the stack empty; if openers are left at the end, the
innermost of them is the one that is reported.
-/

import TapeMachine.Program.Instruction

namespace TapeMachine

/-- A bracket without a partner. -/
structure UnmatchedBracket where
  position : Nat
  bracket : Instruction
  deriving DecidableEq

namespace Brackets

/-- The positions of partners: an entry for every byte, filled at the brackets. -/
abbrev Partners := Array (Option Nat)

def join (partners : Partners) (opener closer : Nat) : Partners :=
  (partners.setIfInBounds opener (some closer)).setIfInBounds closer (some opener)

/-- Pair the brackets of what is left of a program, from `position` on. -/
def scan : List UInt8 → Nat → List Nat → Partners → Except UnmatchedBracket Partners
  | [], _, [], partners => .ok partners
  | [], _, innermost :: _, _ => .error ⟨innermost, .loopStart⟩
  | byte :: rest, position, waiting, partners =>
      match Instruction.ofByte? byte with
      | some .loopStart => scan rest (position + 1) (position :: waiting) partners
      | some .loopEnd =>
          match waiting with
          | [] => .error ⟨position, .loopEnd⟩
          | opener :: waiting =>
              scan rest (position + 1) waiting (join partners opener position)
      | _ => scan rest (position + 1) waiting partners

/-- The partner of every bracket of a program. -/
def pair (code : List UInt8) : Except UnmatchedBracket Partners :=
  scan code 0 [] (Array.replicate code.length none)

end Brackets

end TapeMachine
