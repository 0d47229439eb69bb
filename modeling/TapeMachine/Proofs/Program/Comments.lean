/-
# Programs without their comments

Deleting the comments of a program moves every instruction to its rank, the number of instructions
in front of it. A program and what is left of it load alike, since brackets are instructions: the
one is balanced if and only if the other is. Partners stay partners under the new numbers.
-/

import TapeMachine.Proofs.Program.Loaded

namespace TapeMachine

namespace Instruction

@[simp]
theorem withoutComments_nil : withoutComments [] = [] := rfl

theorem withoutComments_cons_of_some {byte : UInt8} {instruction : Instruction}
    (hbyte : ofByte? byte = some instruction) (code : List UInt8) :
    withoutComments (byte :: code) = byte :: withoutComments code := by
  simp [withoutComments, hbyte]

theorem withoutComments_cons_of_none {byte : UInt8} (hbyte : ofByte? byte = none)
    (code : List UInt8) : withoutComments (byte :: code) = withoutComments code := by
  simp [withoutComments, hbyte]

@[simp]
theorem withoutComments_cons_byte (instruction : Instruction) (code : List UInt8) :
    withoutComments (instruction.byte :: code) = instruction.byte :: withoutComments code :=
  withoutComments_cons_of_some (ofByte?_byte instruction) code

@[simp]
theorem withoutComments_append (first second : List UInt8) :
    withoutComments (first ++ second) = withoutComments first ++ withoutComments second :=
  List.filter_append first second

/-- How many instructions stand in front of a position: where an instruction is once the comments
are gone. -/
def rank (code : List UInt8) (position : Nat) : Nat :=
  (withoutComments (code.take position)).length

theorem rank_append_length (before after : List UInt8) :
    rank (before ++ after) before.length = (withoutComments before).length := by
  rw [rank, List.take_left]

theorem rank_of_length_le {code : List UInt8} {position : Nat} (hle : code.length ≤ position) :
    rank code position = (withoutComments code).length := by
  rw [rank, List.take_of_length_le hle]

variable {code : List UInt8} {position : Nat} {byte : UInt8}

theorem rank_succ (hbyte : code[position]? = some byte) :
    rank code (position + 1) = rank code position + (withoutComments [byte]).length := by
  rw [rank, rank, List.take_add_one, hbyte, Option.toList_some, withoutComments_append,
    List.length_append]

/-- A comment has the rank of what stands behind it. -/
theorem rank_succ_of_none (hbyte : code[position]? = some byte) (hcomment : ofByte? byte = none) :
    rank code (position + 1) = rank code position := by
  rw [rank_succ hbyte, withoutComments_cons_of_none hcomment, withoutComments_nil,
    List.length_nil, Nat.add_zero]

theorem rank_succ_of_some {instruction : Instruction} (hbyte : code[position]? = some byte)
    (hinstruction : ofByte? byte = some instruction) :
    rank code (position + 1) = rank code position + 1 := by
  rw [rank_succ hbyte, withoutComments_cons_of_some hinstruction, withoutComments_nil,
    List.length_singleton]

/-- An instruction stands at its rank once the comments are gone. -/
theorem getElem?_rank {instruction : Instruction} (hbyte : code[position]? = some byte)
    (hinstruction : ofByte? byte = some instruction) :
    (withoutComments code)[rank code position]? = some byte := by
  obtain ⟨hlt, hbyte⟩ := List.getElem?_eq_some_iff.mp hbyte
  have hcode : withoutComments code = withoutComments (code.take position) ++
      byte :: withoutComments (code.drop (position + 1)) := by
    rw [← withoutComments_cons_of_some hinstruction, ← withoutComments_append, ← hbyte,
      ← List.drop_eq_getElem_cons hlt, List.take_append_drop]
  rw [hcode, rank, List.getElem?_append_right (Nat.le_refl _), Nat.sub_self,
    List.getElem?_cons_zero]

/-- The instructions in front of a position are the first ones that are left without comments. -/
theorem withoutComments_take (code : List UInt8) (position : Nat) :
    withoutComments (code.take position) = (withoutComments code).take (rank code position) := by
  have hcode : withoutComments code =
      withoutComments (code.take position) ++ withoutComments (code.drop position) := by
    rw [← withoutComments_append, List.take_append_drop]
  rw [hcode, rank, List.take_left]

/-- Deleting comments deletes no instruction. -/
theorem count_withoutComments (instruction : Instruction) (code : List UInt8) :
    (withoutComments code).count instruction.byte = code.count instruction.byte := by
  rw [withoutComments, List.count_filter]
  rw [ofByte?_byte]
  rfl

end Instruction

open Instruction

theorem isBracket_eq_false_of_none {byte : UInt8} (hcomment : ofByte? byte = none) :
    isBracket byte = false := by
  rcases eq_loopStart_or_eq_loopEnd_or_leaf byte with rfl | rfl | hleaf
  · rw [ofByte?_byte] at hcomment
    contradiction
  · rw [ofByte?_byte] at hcomment
    contradiction
  · exact hleaf

namespace Balanced

theorem withoutComments {code : List UInt8} (hcode : Balanced code) :
    Balanced (withoutComments code) := by
  induction hcode with
  | nil => exact .nil
  | @leaf byte rest hleaf _ ih =>
      cases hbyte : ofByte? byte with
      | none => rwa [withoutComments_cons_of_none hbyte]
      | some instruction =>
          rw [withoutComments_cons_of_some hbyte]
          exact .leaf hleaf ih
  | loop _ _ ihbody ihrest => simpa using Balanced.loop ihbody ihrest

/-- Comments are bytes like any others to the grammar. -/
theorem of_comments {comments : List UInt8} (hcomments : ∀ byte ∈ comments, ofByte? byte = none)
    {code : List UInt8} (hcode : Balanced code) : Balanced (comments ++ code) := by
  induction comments with
  | nil => exact hcode
  | cons byte comments ih =>
      have hleaf := isBracket_eq_false_of_none (hcomments byte (List.mem_cons_self ..))
      exact .leaf hleaf (ih fun other hother => hcomments other (List.mem_cons_of_mem _ hother))

end Balanced

/-- Where the rest of a program begins with an instruction once the comments are gone, comments
stand in front of that instruction and the program goes on behind it. -/
theorem exists_of_withoutComments_eq_cons {code rest : List UInt8} {byte : UInt8}
    (hcode : withoutComments code = byte :: rest) :
    ∃ comments later, code = comments ++ byte :: later ∧
      (∀ other ∈ comments, ofByte? other = none) ∧ withoutComments later = rest := by
  obtain ⟨comments, later, hsplit, hcomments, -, hlater⟩ := List.filter_eq_cons_iff.mp hcode
  refine ⟨comments, later, hsplit, fun other hother => ?_, hlater⟩
  simpa using hcomments other hother

theorem balanced_of_withoutComments_eq {code bare : List UInt8} (hbare : Balanced bare)
    (hcode : withoutComments code = bare) : Balanced code := by
  induction hbare generalizing code with
  | nil =>
      have hcomments : ∀ byte ∈ code, ofByte? byte = none := by
        simpa [withoutComments] using hcode
      simpa using Balanced.of_comments hcomments .nil
  | leaf hleaf _ ih =>
      obtain ⟨comments, later, rfl, hcomments, hlater⟩ := exists_of_withoutComments_eq_cons hcode
      exact .of_comments hcomments (.leaf hleaf (ih hlater))
  | loop _ _ ihbody ihrest =>
      obtain ⟨comments, later, rfl, hcomments, hlater⟩ := exists_of_withoutComments_eq_cons hcode
      obtain ⟨inside, closing, rfl, hinside, hclosing⟩ := List.filter_eq_append_iff.mp hlater
      obtain ⟨trailing, behind, rfl, htrailing, hbehind⟩ :=
        exists_of_withoutComments_eq_cons hclosing
      have hbody : Balanced (inside ++ trailing) :=
        (ihbody hinside).append (by simpa using Balanced.of_comments htrailing .nil)
      have hloop := Balanced.loop hbody (ihrest hbehind)
      rw [List.append_assoc] at hloop
      exact .of_comments hcomments hloop

theorem balanced_withoutComments_iff {code : List UInt8} :
    Balanced (withoutComments code) ↔ Balanced code :=
  ⟨fun hbare => balanced_of_withoutComments_eq hbare rfl, Balanced.withoutComments⟩

namespace Brackets

theorem Matched.rank {code : List UInt8} {opener closer : Nat}
    (hmatched : Matched code opener closer) :
    Matched (withoutComments code) (rank code opener) (rank code closer) := by
  obtain ⟨before, body, after, hbody, rfl, rfl, rfl⟩ := hmatched.exists_eq_append
  have hopener := rank_append_length before
    (Instruction.loopStart.byte :: (body ++ Instruction.loopEnd.byte :: after))
  have hcloser := rank_append_length (before ++ Instruction.loopStart.byte :: body)
    (Instruction.loopEnd.byte :: after)
  have hbare := matched_append_loop (withoutComments before) (withoutComments after)
    hbody.withoutComments
  simp only [List.append_assoc, List.cons_append, List.length_append, List.length_cons,
    withoutComments_append, withoutComments_cons_byte] at hopener hcloser hbare ⊢
  rwa [hopener, hcloser]

theorem Partnered.rank {code : List UInt8} {position partner : Nat}
    (hpartnered : Partnered code position partner) :
    Partnered (withoutComments code) (rank code position) (rank code partner) :=
  hpartnered.imp Matched.rank Matched.rank

theorem Partnered.exists_byte {code : List UInt8} {position partner : Nat}
    (hpartnered : Partnered code position partner) :
    ∃ bracket : Instruction, code[partner]? = some bracket.byte := by
  rcases hpartnered with hmatched | hmatched
  · exact ⟨.loopEnd, hmatched.closes⟩
  · exact ⟨.loopStart, hmatched.opens⟩

end Brackets

end TapeMachine
