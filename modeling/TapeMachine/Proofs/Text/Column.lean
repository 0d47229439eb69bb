/-
# Numbers in columns

A number in a column stands in its decimal digits behind as many blanks as it takes to fill the
column. Nothing else is in the column, so that any other character ends it, and behind the blanks
there is the number alone.
-/

import Mathlib.Data.List.TakeWhile

namespace TapeMachine.Column

variable {number : Nat} {char : Char}

theorem isDigit_of_mem_toDigits (hchar : char ∈ Nat.toDigits 10 number) : char.isDigit = true :=
  Nat.isDigit_of_mem_toDigits (by decide) (by decide) hchar

theorem notMem_toDigits (number : Nat) (hdigit : char.isDigit = false) :
    char ∉ Nat.toDigits 10 number := by
  intro hmem
  rw [isDigit_of_mem_toDigits hmem] at hdigit
  contradiction

theorem notMem_leftpad (width number : Nat) (hdigit : char.isDigit = false) (hblank : char ≠ ' ') :
    char ∉ (Nat.toDigits 10 number).leftpad width ' ' := by
  rw [List.leftpad, List.mem_append, not_or, List.mem_replicate]
  exact ⟨fun hpad => hblank hpad.2, notMem_toDigits number hdigit⟩

theorem dropWhile_leftpad (width number : Nat) :
    ((Nat.toDigits 10 number).leftpad width ' ').dropWhile (· = ' ') = Nat.toDigits 10 number := by
  have hpad : ∀ char ∈ List.replicate (width - (Nat.toDigits 10 number).length) ' ',
      decide (char = ' ') = true :=
    fun char hchar => decide_eq_true (List.eq_of_mem_replicate hchar)
  rw [List.leftpad, List.dropWhile_append_of_pos hpad, List.dropWhile_eq_self_iff]
  intro hlength hblank
  have hdigit := isDigit_of_mem_toDigits (List.getElem_mem hlength)
  rw [of_decide_eq_true hblank] at hdigit
  contradiction

theorem dropWhile_leftpad_append (width number : Nat) (rest : List Char) :
    ((Nat.toDigits 10 number).leftpad width ' ' ++ rest).dropWhile (· = ' ') =
      Nat.toDigits 10 number ++ rest := by
  have hdigits : (Nat.toDigits 10 number).isEmpty = false := by simp
  rw [List.dropWhile_append, dropWhile_leftpad, hdigits, if_neg Bool.false_ne_true]

end TapeMachine.Column
