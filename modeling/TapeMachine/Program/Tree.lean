/-
# Program trees

A balanced program is a sequence of bytes and loops, and a loop has such a sequence for its body.
Writing a tree out gives the program back.
-/

import TapeMachine.Program.Grammar

namespace TapeMachine

inductive Node where
  | leaf (byte : UInt8)
  | loop (body : List Node)

namespace Node

mutual

/-- The bytes of a node. -/
def write : Node → List UInt8
  | leaf byte => [byte]
  | loop body => Instruction.loopStart.byte :: (writeAll body ++ [Instruction.loopEnd.byte])

/-- The bytes of a sequence of nodes. -/
def writeAll : List Node → List UInt8
  | [] => []
  | node :: nodes => node.write ++ writeAll nodes

end

mutual

/-- No leaf of a node is a bracket. -/
def WellFormed : Node → Prop
  | leaf byte => isBracket byte = false
  | loop body => AllWellFormed body

/-- No leaf of a sequence of nodes is a bracket. -/
def AllWellFormed : List Node → Prop
  | [] => True
  | node :: nodes => node.WellFormed ∧ AllWellFormed nodes

end

end Node

end TapeMachine
