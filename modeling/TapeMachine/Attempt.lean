/-
# Attempts

An operation on a state either succeeds or is refused. A refused operation says why, and it too
leaves a state behind, for a refusal need not undo what came before it.
-/

namespace TapeMachine

inductive Attempt (ε σ α : Type) where
  | done (value : α) (state : σ)
  | refused (reason : ε) (state : σ)
  deriving DecidableEq

namespace Attempt

variable {ε σ α : Type}

/-- The state that an attempt leaves behind. -/
def state : Attempt ε σ α → σ
  | done _ state => state
  | refused _ state => state

end Attempt

end TapeMachine
