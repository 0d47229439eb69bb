/-
# Signed positions

A sequence of `size` elements has the positions `-size` to `size - 1`. A position that is not
negative counts from the front, a negative one from the back, so that `-1` is the last element.
A cut at a signed position keeps what stands before it and never fails: it is clamped to the
sequence.
-/

import TapeMachine.Word

namespace TapeMachine

/-- A position that names no element of a sequence of `size` elements. -/
structure OutOfBounds where
  index : Int
  size : Nat
  deriving DecidableEq

namespace OutOfBounds

/-- Why a position is refused. -/
inductive Reason where
  /-- There is no such element. -/
  | noElement
  /-- The position fits only a word without a sign. -/
  | unsignedWord
  /-- The position fits no word. -/
  | noWord
  deriving DecidableEq

def reason (error : OutOfBounds) : Reason :=
  if Word.fits error.index then .noElement
  else if Word.fitsUnsigned error.index then .unsignedWord
  else .noWord

/-- How the error is told of a cell or of an entry of a jump table. -/
def message (error : OutOfBounds) : String :=
  match error.reason with
  | .noElement => s!"index {error.index} is out of bounds for axis 0 with size {error.size}"
  | .unsignedWord => "Python int too large to convert to C long"
  | .noWord =>
      "only integers, slices (`:`), ellipsis (`...`), numpy.newaxis (`None`) "
        ++ "and integer or boolean arrays are valid indices"

/-- How the error is told of a byte of a code or of a source. -/
def byteMessage (error : OutOfBounds) : String :=
  if Word.fits error.index then "index out of range" else Word.misfit

end OutOfBounds

namespace Index

/-- The element that a signed position names, if it names one. -/
def resolve (size : Nat) (position : Int) : Option (Fin size) :=
  if hfront : 0 ≤ position ∧ position < size then
    some ⟨position.toNat, by omega⟩
  else if hback : -(size : Int) ≤ position ∧ position < 0 then
    some ⟨(position + size).toNat, by omega⟩
  else
    none

/-- How many elements of a sequence of `size` elements stand before a signed cut. -/
def cut (size : Nat) (position : Int) : Nat :=
  if 0 ≤ position then min position.toNat size else (position + size).toNat

theorem resolve_ofNat {size position : Nat} (hlt : position < size) :
    resolve size position = some ⟨position, hlt⟩ := by
  have hfront : 0 ≤ (position : Int) ∧ (position : Int) < size := by omega
  simp [resolve, hfront]

theorem resolve_eq_none_iff {size : Nat} {position : Int} :
    resolve size position = none ↔ position < -(size : Int) ∨ (size : Int) ≤ position := by
  unfold resolve
  by_cases hfront : 0 ≤ position ∧ position < size
  · simp only [hfront, and_self, dif_pos, reduceCtorEq, false_iff]
    omega
  · by_cases hback : -(size : Int) ≤ position ∧ position < 0
    · simp only [hfront, hback, and_self, dif_neg, dif_pos, not_false_eq_true, reduceCtorEq,
        false_iff]
      omega
    · simp only [hfront, hback, dif_neg, not_false_eq_true, true_iff]
      omega

theorem cut_ofNat (size position : Nat) : cut size position = min position size := by
  simp [cut]

end Index

end TapeMachine
