/-
# Blanks

The blanks are tab to carriage return, the space, the next-line control, and the space, line and
paragraph separators of every script.
-/

namespace TapeMachine.Blank

/-- The blanks, as ranges of code points. -/
def ranges : List (Nat × Nat) :=
  [(0x9, 0xD), (0x20, 0x20), (0x85, 0x85), (0xA0, 0xA0), (0x1680, 0x1680), (0x2000, 0x200A),
    (0x2028, 0x2029), (0x202F, 0x202F), (0x205F, 0x205F), (0x3000, 0x3000)]

def isBlank (char : Char) : Bool :=
  ranges.any fun (first, last) => first ≤ char.toNat && char.toNat ≤ last

end TapeMachine.Blank
