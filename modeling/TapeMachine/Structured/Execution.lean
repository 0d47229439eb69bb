/-
# Structured execution

The meaning of a program tree: bytes take effect in order, and a loop executes its body while the
current cell is not zero. An execution ends by halting or by a fault; a program that goes on for
ever has none. There is no position in the program and no jump.

An execution also has a cost: one for every byte that takes effect, one for entering a loop, and
one for every time that the body of a loop has been executed to its end.
-/

import TapeMachine.Program.Tree
import TapeMachine.Structured.Store

namespace TapeMachine.Structured

/-- How an execution ends, with the store it leaves behind. -/
inductive Outcome where
  | halted (store : Store)
  | faulted (kind : FaultKind) (store : Store)
  deriving DecidableEq

/-- A sequence of nodes, executed from a store, ends with an outcome at a cost. The cost of
entering a loop is charged where the loop is left. -/
inductive Executes (config : Config) : List Node → Store → Nat → Outcome → Prop where
  | nil {store : Store} : Executes config [] store 0 (.halted store)
  | leaf {byte : UInt8} {nodes : List Node} {store next : Store} {cost : Nat}
      {outcome : Outcome} (heffect : store.effect config byte = .ok next)
      (hrest : Executes config nodes next cost outcome) :
      Executes config (.leaf byte :: nodes) store (cost + 1) outcome
  | leafFault {byte : UInt8} {nodes : List Node} {store : Store} {kind : FaultKind}
      (heffect : store.effect config byte = .error kind) :
      Executes config (.leaf byte :: nodes) store 0 (.faulted kind store)
  | loopExit {body nodes : List Node} {store : Store} {cost : Nat} {outcome : Outcome}
      (hzero : store.current = 0) (hrest : Executes config nodes store cost outcome) :
      Executes config (.loop body :: nodes) store (cost + 1) outcome
  | loopRound {body nodes : List Node} {store next : Store} {bodyCost cost : Nat}
      {outcome : Outcome} (hnonzero : store.current ≠ 0)
      (hbody : Executes config body store bodyCost (.halted next))
      (hrest : Executes config (.loop body :: nodes) next cost outcome) :
      Executes config (.loop body :: nodes) store (bodyCost + 1 + cost) outcome
  | loopFault {body nodes : List Node} {store last : Store} {cost : Nat} {kind : FaultKind}
      (hnonzero : store.current ≠ 0)
      (hbody : Executes config body store cost (.faulted kind last)) :
      Executes config (.loop body :: nodes) store (cost + 1) (.faulted kind last)

end TapeMachine.Structured
