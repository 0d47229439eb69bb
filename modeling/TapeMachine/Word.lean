/-
# Machine words

Positions and lengths are kept in words of 64 bits. An integer that fits no such word is refused
before anything is looked up, and a cell or an entry of a jump table is refused in another way if
a word without a sign would have held its position.
-/

namespace TapeMachine.Word

/-- The least integer of a word with a sign. -/
def least : Int := -0x8000000000000000

/-- The greatest integer of a word with a sign. -/
def greatest : Int := 0x7FFFFFFFFFFFFFFF

/-- Whether an integer fits a word with a sign. -/
def fits (value : Int) : Bool := least ≤ value && value ≤ greatest

/-- Whether an integer fits a word without a sign. -/
def fitsUnsigned (value : Int) : Bool := 0 ≤ value && value ≤ 2 * greatest + 1

/-- How a length or the position of a byte is refused that fits no word. -/
def misfit : String := "cannot fit 'int' into an index-sized integer"

theorem fits_iff {value : Int} : fits value = true ↔ least ≤ value ∧ value ≤ greatest := by
  simp [fits]

end TapeMachine.Word
