/-
# Hosts

What is not up to a program: how much memory it is given in one piece, and how deep its calls may
be nested. What asks for more is refused at once. Nothing else is known of either bound than that a
word holds the number of bytes, and that there is room for one cell of any width.
-/

import TapeMachine.Word

namespace TapeMachine

structure Host where
  /-- The most bytes of a tape, and the most characters of one line. -/
  memory : Nat
  /-- The most lists around a value that is written down. -/
  nesting : Nat
  cell_le_memory : 4 ≤ memory
  memory_le_greatest : memory ≤ Word.greatest

/-- The host with the least memory. It writes no items of a list. -/
def Host.least : Host where
  memory := 4
  nesting := 0
  cell_le_memory := Nat.le_refl 4
  memory_le_greatest := by decide

end TapeMachine
