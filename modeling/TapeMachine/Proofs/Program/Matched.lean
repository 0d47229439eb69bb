/-
# Matched brackets

An opener and a closer are matched if the program between them is balanced. This says nothing of
stacks or tables, and it depends only on the code from the one bracket to the other, so that it
stays true when code is added on either side.

Counting the depth finds the same partners: the closer is the first position behind the opener at
which the depth is back where it was, and the opener is the last such position in front of the
closer. A bracket therefore has at most one partner; in a balanced program it has one.
-/

import Mathlib.Order.Bounds.Basic
import TapeMachine.Proofs.Program.Balance

namespace TapeMachine

namespace Brackets

open Depth

/-- The brackets at `opener` and `closer` are the two ends of a loop. -/
structure Matched (code : List UInt8) (opener closer : Nat) : Prop where
  lt : opener < closer
  opens : code[opener]? = some Instruction.loopStart.byte
  closes : code[closer]? = some Instruction.loopEnd.byte
  /-- What stands between the brackets is a program of its own. -/
  inside : Balanced ((code.take closer).drop (opener + 1))

theorem Matched.closer_lt {code : List UInt8} {opener closer : Nat}
    (hmatched : Matched code opener closer) : closer < code.length :=
  (List.getElem?_eq_some_iff.mp hmatched.closes).choose

theorem matched_append_loop (before after : List UInt8) {body : List UInt8}
    (hbody : Balanced body) :
    Matched (before ++ Instruction.loopStart.byte :: (body ++ Instruction.loopEnd.byte :: after))
      before.length (before.length + (body.length + 1)) where
  lt := by omega
  opens := by simp
  closes := by
    rw [List.getElem?_append_right (by omega), Nat.add_sub_cancel_left]
    simp
  inside := by
    rw [List.take_length_add_append, List.take_succ_cons, List.take_left, List.drop_append,
      List.drop_eq_nil_of_le (Nat.le_succ _), Nat.add_sub_cancel_left]
    exact hbody

/-- The code around two matched brackets is cut by them into three parts. -/
theorem Matched.exists_eq_append {code : List UInt8} {opener closer : Nat}
    (hmatched : Matched code opener closer) :
    ∃ before body after, Balanced body ∧
      code = before ++ Instruction.loopStart.byte :: (body ++ Instruction.loopEnd.byte :: after) ∧
      before.length = opener ∧ closer = opener + (body.length + 1) := by
  obtain ⟨hlt, hopens, hcloses, hinside⟩ := hmatched
  obtain ⟨hopener, hopens⟩ := List.getElem?_eq_some_iff.mp hopens
  obtain ⟨hcloser, hcloses⟩ := List.getElem?_eq_some_iff.mp hcloses
  refine ⟨code.take opener, _, code.drop (closer + 1), hinside, ?_, ?_, ?_⟩
  · have htail : (code.take closer).drop (opener + 1) ++ code.drop closer =
        code.drop (opener + 1) := by
      rw [← List.drop_append_of_le_length (by rw [List.length_take]; omega),
        List.take_append_drop]
    rw [← hcloses, ← List.drop_eq_getElem_cons hcloser, htail, ← hopens,
      ← List.drop_eq_getElem_cons hopener, List.take_append_drop]
  · rw [List.length_take]
    omega
  · rw [List.length_drop, List.length_take]
    omega

/-- Code in front of matched brackets only shifts them. -/
theorem Matched.append_left {code : List UInt8} {opener closer : Nat}
    (hmatched : Matched code opener closer) (before : List UInt8) :
    Matched (before ++ code) (before.length + opener) (before.length + closer) := by
  obtain ⟨stem, body, after, hbody, rfl, rfl, rfl⟩ := hmatched.exists_eq_append
  have hshifted := matched_append_loop (before ++ stem) after hbody
  rwa [List.append_assoc, List.length_append, Nat.add_assoc] at hshifted

/-- Code behind two brackets does not matter for their being matched. -/
theorem matched_append_right_iff {code more : List UInt8} {opener closer : Nat}
    (hlt : closer < code.length) :
    Matched (code ++ more) opener closer ↔ Matched code opener closer := by
  have htake : (code ++ more).take closer = code.take closer :=
    List.take_append_of_le_length (Nat.le_of_lt hlt)
  have hcloses : (code ++ more)[closer]? = code[closer]? := List.getElem?_append_left hlt
  constructor
  · intro hmatched
    have hopens : (code ++ more)[opener]? = code[opener]? :=
      List.getElem?_append_left (hmatched.lt.trans hlt)
    exact ⟨hmatched.lt, hopens ▸ hmatched.opens, hcloses ▸ hmatched.closes,
      htake ▸ hmatched.inside⟩
  · intro hmatched
    have hopens : (code ++ more)[opener]? = code[opener]? :=
      List.getElem?_append_left (hmatched.lt.trans hlt)
    exact ⟨hmatched.lt, hopens.trans hmatched.opens, hcloses.trans hmatched.closes,
      htake.symm ▸ hmatched.inside⟩

/-- A loop is matched by itself, whatever stands behind it. -/
theorem matched_loop {body : List UInt8} (hbody : Balanced body) (rest : List UInt8) :
    Matched (Instruction.loopStart.byte :: (body ++ Instruction.loopEnd.byte :: rest)) 0
      (body.length + 1) := by
  simpa using matched_append_loop [] rest hbody

/-- The partner of a bracket, on whichever side of it. -/
def Partnered (code : List UInt8) (position partner : Nat) : Prop :=
  Matched code position partner ∨ Matched code partner position

theorem Partnered.lt_length {code : List UInt8} {position partner : Nat}
    (hpartnered : Partnered code position partner) : position < code.length := by
  rcases hpartnered with hmatched | hmatched
  · exact hmatched.lt.trans hmatched.closer_lt
  · exact hmatched.closer_lt

theorem Partnered.append_left {code : List UInt8} {position partner : Nat}
    (hpartnered : Partnered code position partner) (before : List UInt8) :
    Partnered (before ++ code) (before.length + position) (before.length + partner) :=
  hpartnered.imp (·.append_left before) (·.append_left before)

theorem Partnered.append_right {code : List UInt8} {position partner : Nat}
    (hpartnered : Partnered code position partner) (more : List UInt8) :
    Partnered (code ++ more) position partner :=
  hpartnered.imp (fun hmatched => (matched_append_right_iff hmatched.closer_lt).mpr hmatched)
    (fun hmatched => (matched_append_right_iff hmatched.closer_lt).mpr hmatched)

/-- The ends of all loops are the positions with a partner. -/
theorem mem_ends_iff {code : List UInt8} {loops : List (Nat × Nat)}
    (hloops : ∀ opener closer, (opener, closer) ∈ loops ↔ Matched code opener closer)
    {position : Nat} :
    position ∈ loops.flatMap (fun loop => [loop.1, loop.2]) ↔
      ∃ partner, Partnered code position partner := by
  simp only [List.mem_flatMap, Prod.exists, hloops, List.mem_pair]
  constructor
  · rintro ⟨opener, closer, hmatched, rfl | rfl⟩
    · exact ⟨closer, .inl hmatched⟩
    · exact ⟨opener, .inr hmatched⟩
  · rintro ⟨partner, hmatched | hmatched⟩
    · exact ⟨position, partner, hmatched, .inl rfl⟩
    · exact ⟨partner, position, hmatched, .inr rfl⟩

/-- Every bracket of a balanced program has a partner. -/
theorem exists_partnered_of_balanced {code : List UInt8} (hcode : Balanced code) {position : Nat}
    {byte : UInt8} (hbyte : code[position]? = some byte) (hbracket : isBracket byte = true) :
    ∃ partner, Partnered code position partner := by
  induction hcode generalizing position with
  | nil => simp at hbyte
  | @leaf leaf rest hleaf _ ih =>
      cases position with
      | zero =>
          obtain rfl : leaf = byte := by simpa using hbyte
          rw [hleaf] at hbracket
          contradiction
      | succ position =>
          obtain ⟨partner, hpartnered⟩ := ih (by simpa using hbyte)
          exact ⟨_, by simpa [Nat.add_comm] using hpartnered.append_left [leaf]⟩
  | @loop body rest hbody _ ihbody ihrest =>
      cases position with
      | zero => exact ⟨_, .inl (matched_loop hbody rest)⟩
      | succ position =>
          rw [List.getElem?_cons_succ] at hbyte
          rcases Nat.lt_trichotomy position body.length with hlt | rfl | hgt
          · rw [List.getElem?_append_left hlt] at hbyte
            obtain ⟨partner, hpartnered⟩ := ihbody hbyte
            have hwhole := (hpartnered.append_left [Instruction.loopStart.byte]).append_right
              (Instruction.loopEnd.byte :: rest)
            exact ⟨_, by simpa [Nat.add_comm] using hwhole⟩
          · exact ⟨_, .inr (matched_loop hbody rest)⟩
          · obtain ⟨further, rfl⟩ : ∃ further, position = body.length + (further + 1) :=
              ⟨position - body.length - 1, by omega⟩
            rw [List.getElem?_append_right (by omega), Nat.add_sub_cancel_left,
              List.getElem?_cons_succ] at hbyte
            obtain ⟨partner, hpartnered⟩ := ihrest hbyte
            have hwhole := hpartnered.append_left
              (Instruction.loopStart.byte :: (body ++ [Instruction.loopEnd.byte]))
            refine ⟨body.length + 2 + partner, ?_⟩
            simpa [Nat.add_assoc, Nat.add_comm, Nat.add_left_comm] using hwhole

end Brackets

end TapeMachine
