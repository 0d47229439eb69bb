/-
# Relaxed configurations

A configuration is relaxed by letting an instruction go on where it would have met a fault: a trap
becomes a wrap, and a fault at the end of the input becomes a zero or a kept cell.
-/

import TapeMachine.Config
import TapeMachine.Fault

namespace TapeMachine

namespace Boundary

/-- `wider` goes on wherever `narrow` does. -/
def Relaxes (wider narrow : Boundary) : Prop :=
  wider = narrow ∨ (narrow = .trap ∧ wider = .wrap)

end Boundary

namespace EndOfInput

def Relaxes (wider narrow : EndOfInput) : Prop :=
  wider = narrow ∨ (narrow = .fault ∧ (wider = .zero ∨ wider = .keep))

end EndOfInput

namespace Config

structure Relaxes (wider narrow : Config) : Prop where
  tapeSize : wider.tapeSize = narrow.tapeSize
  width : wider.width = narrow.width
  overflow : wider.overflow.Relaxes narrow.overflow
  underflow : wider.underflow.Relaxes narrow.underflow
  atEnd : wider.atEnd.Relaxes narrow.atEnd

/-- The kinds of fault that a relaxation has done away with. -/
def Lifted (wider narrow : Config) : FaultKind → Prop
  | .dataOverflow => wider.overflow ≠ narrow.overflow
  | .dataUnderflow => wider.underflow ≠ narrow.underflow
  | .inputExhausted => wider.atEnd ≠ narrow.atEnd
  | _ => False

end Config

end TapeMachine
