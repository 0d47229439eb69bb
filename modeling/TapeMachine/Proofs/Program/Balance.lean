/-
# The depth of balanced programs

A balanced program leaves the depth of the brackets where it was, and nowhere inside goes below
it. Read backwards the same holds with the signs exchanged. This is all that is needed of the
grammar to find the partner of a bracket by counting.

A program is overdrawn if it closes more loops than it opens, which is a negative depth.
-/

import Mathlib.Algebra.BigOperators.Group.List.Basic
import Mathlib.Algebra.Ring.Int.Defs
import TapeMachine.Program.Depth
import TapeMachine.Program.Grammar

namespace TapeMachine

/-- A byte opens a loop, closes one, or is no bracket. -/
theorem eq_loopStart_or_eq_loopEnd_or_leaf (byte : UInt8) :
    byte = Instruction.loopStart.byte ∨ byte = Instruction.loopEnd.byte ∨
      isBracket byte = false := by
  by_cases hstart : byte = Instruction.loopStart.byte
  · exact .inl hstart
  · by_cases hend : byte = Instruction.loopEnd.byte
    · exact .inr (.inl hend)
    · exact .inr (.inr (by simp [isBracket, hstart, hend]))

namespace Depth

@[simp]
theorem delta_loopStart : delta Instruction.loopStart.byte = 1 := rfl

@[simp]
theorem delta_loopEnd : delta Instruction.loopEnd.byte = -1 := rfl

theorem delta_of_isBracket_eq_false {byte : UInt8} (hleaf : isBracket byte = false) :
    delta byte = 0 := by
  obtain ⟨hstart, hend⟩ : byte ≠ Instruction.loopStart.byte ∧ byte ≠ Instruction.loopEnd.byte := by
    simpa [isBracket] using hleaf
  rw [delta, if_neg hstart, if_neg hend]

@[simp]
theorem depth_nil : depth [] = 0 := rfl

@[simp]
theorem depth_cons (byte : UInt8) (code : List UInt8) :
    depth (byte :: code) = delta byte + depth code := rfl

@[simp]
theorem depth_append (first second : List UInt8) :
    depth (first ++ second) = depth first + depth second := by
  induction first with
  | nil => simp
  | cons byte first ih => simp [ih, Int.add_assoc]

theorem depth_eq_sum (code : List UInt8) : depth code = (code.map delta).sum := by
  induction code with
  | nil => rfl
  | cons byte code ih => simp [ih]

/-- The depth is the number of openers less the number of closers. -/
theorem depth_eq_count_sub_count (code : List UInt8) :
    depth code = (code.count Instruction.loopStart.byte : Int) -
      code.count Instruction.loopEnd.byte := by
  induction code with
  | nil => rfl
  | cons byte code ih =>
      rw [depth_cons, ih, List.count_cons, List.count_cons, delta]
      by_cases hstart : byte = Instruction.loopStart.byte
      · have hend : ¬ Instruction.loopStart.byte = Instruction.loopEnd.byte := by decide
        simp only [hstart, hend, beq_self_eq_true, beq_iff_eq, if_true, if_false]
        omega
      · by_cases hend : byte = Instruction.loopEnd.byte
        · simp only [hend, beq_self_eq_true, beq_iff_eq, if_true]
          rw [hend] at hstart
          simp only [hstart, if_false]
          omega
        · simp only [hstart, hend, beq_iff_eq, if_false]
          omega

end Depth

namespace Balanced

open Depth

theorem depth_eq_zero {code : List UInt8} (hcode : Balanced code) : depth code = 0 := by
  induction hcode with
  | nil => rfl
  | leaf hleaf _ ih => rw [depth_cons, delta_of_isBracket_eq_false hleaf, ih, Int.add_zero]
  | loop _ _ hbody hrest =>
      simp only [depth_cons, depth_append, delta_loopStart, delta_loopEnd, hbody, hrest]
      omega

/-- Inside a balanced program the depth is nowhere lower than in front of it. -/
theorem depth_take_nonneg {code : List UInt8} (hcode : Balanced code) (length : Nat) :
    0 ≤ depth (code.take length) := by
  induction hcode generalizing length with
  | nil => simp
  | leaf hleaf _ ih =>
      cases length with
      | zero => simp
      | succ length =>
          rw [List.take_succ_cons, depth_cons, delta_of_isBracket_eq_false hleaf]
          have := ih length
          omega
  | @loop body rest hbody _ ihbody ihrest =>
      cases length with
      | zero => simp
      | succ length =>
          rw [List.take_succ_cons, depth_cons, delta_loopStart, List.take_append, depth_append]
          by_cases hshort : length ≤ body.length
          · have hin := ihbody length
            have hout : length - body.length = 0 := by omega
            rw [hout, List.take_zero, depth_nil]
            omega
          · -- The cut is behind the body, whose closer it includes.
            obtain ⟨more, rfl⟩ : ∃ more, length = body.length + (more + 1) :=
              ⟨length - body.length - 1, by omega⟩
            have hrest := ihrest more
            rw [Nat.add_sub_cancel_left, List.take_succ_cons, depth_cons, delta_loopEnd,
              List.take_of_length_le (by omega), hbody.depth_eq_zero]
            omega

theorem depth_drop_nonpos {code : List UInt8} (hcode : Balanced code) (length : Nat) :
    depth (code.drop length) ≤ 0 := by
  have hsum := depth_append (code.take length) (code.drop length)
  rw [List.take_append_drop, hcode.depth_eq_zero] at hsum
  have := hcode.depth_take_nonneg length
  omega

end Balanced

namespace Brackets

/-- More loops are closed than opened. -/
def Overdrawn (code : List UInt8) : Prop :=
  code.count Instruction.loopStart.byte < code.count Instruction.loopEnd.byte

theorem overdrawn_iff {code : List UInt8} : Overdrawn code ↔ Depth.depth code < 0 := by
  rw [Overdrawn, Depth.depth_eq_count_sub_count]
  omega

end Brackets

end TapeMachine
