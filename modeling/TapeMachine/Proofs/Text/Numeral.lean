/-
# The size of numerals

A numeral has no more digits than are written, so an integer that has been read can be written.
-/

import Mathlib.Algebra.Group.Nat.Defs
import TapeMachine.Text.Numeral

namespace TapeMachine

theorem Digit.value?_lt {char : Char} {value : Nat} (hvalue : value? char = some value) :
    value < 10 := by
  rw [value?, Option.map_eq_some_iff] at hvalue
  obtain ⟨first, hfirst, rfl⟩ := hvalue
  have hrange := List.find?_some hfirst
  simp only [Bool.and_eq_true, decide_eq_true_eq] at hrange
  omega

namespace Numeral

theorem digits?_lt {word : List Char} {digits : List Nat} (hdigits : digits? word = some digits) :
    ∀ digit ∈ digits, digit < 10 := by
  fun_induction digits? word generalizing digits with
  | case1 => contradiction
  | case2 char =>
      obtain ⟨digit, hdigit, rfl⟩ := Option.map_eq_some_iff.mp hdigits
      simpa using Digit.value?_lt hdigit
  | case3 char rest ih | case4 char rest hunderscore hnil ih =>
      simp only [Option.bind_eq_bind, Option.pure_def, Option.bind_eq_some_iff,
        Option.some.injEq] at hdigits
      obtain ⟨digit, hdigit, others, hothers, rfl⟩ := hdigits
      exact List.forall_mem_cons.mpr ⟨Digit.value?_lt hdigit, ih hothers⟩

/-- A number is below the power of ten with as many zeros as it has digits. -/
theorem foldl_lt {digits : List Nat} (hdigits : ∀ digit ∈ digits, digit < 10) (value : Nat) :
    digits.foldl (fun value digit => value * 10 + digit) value <
      (value + 1) * 10 ^ digits.length := by
  induction digits generalizing value with
  | nil => simp
  | cons digit digits ih =>
      obtain ⟨hdigit, hdigits⟩ := List.forall_mem_cons.mp hdigits
      calc digits.foldl _ (value * 10 + digit)
        _ < (value * 10 + digit + 1) * 10 ^ digits.length := ih hdigits _
        _ ≤ (value + 1) * 10 * 10 ^ digits.length := Nat.mul_le_mul_right _ (by omega)
        _ = (value + 1) * 10 ^ (digit :: digits).length := by
            rw [List.length_cons, Nat.pow_succ', Nat.mul_assoc]

theorem isShort_iff {value : Int} : isShort value = true ↔ value.natAbs < 10 ^ digitLimit := by
  rw [isShort, decide_eq_true_iff, Nat.length_toDigits_le_iff (by decide) (by decide)]

theorem natural?_lt {word : List Char} {value : Nat} (hvalue : natural? word = some value) :
    value < 10 ^ digitLimit := by
  simp only [natural?, Option.bind_eq_bind, Option.bind_eq_some_iff] at hvalue
  obtain ⟨digits, hdigits, hvalue⟩ := hvalue
  split at hvalue
  next hshort =>
    obtain rfl := Option.some.inj hvalue
    have hlt := foldl_lt (digits?_lt hdigits) 0
    rw [Nat.zero_add, Nat.one_mul] at hlt
    exact Nat.lt_of_lt_of_le hlt (Nat.pow_le_pow_right (by decide) hshort)
  next => contradiction

/-- What can be read can be written. -/
theorem isShort_of_integer? {word : String} {value : Int} (hvalue : integer? word = some value) :
    isShort value = true := by
  rw [integer?] at hvalue
  rw [isShort_iff]
  split at hvalue
  next =>
    obtain ⟨number, hnumber, rfl⟩ := Option.map_eq_some_iff.mp hvalue
    rw [Int.natAbs_neg]
    exact natural?_lt hnumber
  all_goals
    obtain ⟨number, hnumber, rfl⟩ := Option.map_eq_some_iff.mp hvalue
    exact natural?_lt hnumber

end Numeral

end TapeMachine
