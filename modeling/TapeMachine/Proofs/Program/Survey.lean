/-
# What a survey finds

The loops that a survey finds are the matched brackets, and the loose brackets are those without a
partner: each bracket is found once, as an end of a loop or by itself. For the loops it is enough to
know which opener a closer meets on the stack, and that is told by the balanced programs into which
the brackets that wait, and those that were loose, cut the code that has been read.

A survey of code with a balanced program in it is that of the code around it with the loops of the
program added, and a survey that starts at another position finds the same at other positions.
-/

import Mathlib.Data.List.Basic
import TapeMachine.Program.Survey
import TapeMachine.Proofs.Program.Waiting

namespace TapeMachine

namespace Brackets

open Depth

section Equations

variable (rest : List UInt8) (position : Nat)

theorem surveyFrom_loopStart (waiting : List Nat) :
    surveyFrom (Instruction.loopStart.byte :: rest) position waiting =
      surveyFrom rest (position + 1) (position :: waiting) := by
  simp [surveyFrom, Instruction.ofByte?_byte]

theorem surveyFrom_loopEnd_nil :
    surveyFrom (Instruction.loopEnd.byte :: rest) position [] =
      (surveyFrom rest (position + 1) []).withLoose position := by
  simp [surveyFrom, Instruction.ofByte?_byte]

theorem surveyFrom_loopEnd_cons (opener : Nat) (waiting : List Nat) :
    surveyFrom (Instruction.loopEnd.byte :: rest) position (opener :: waiting) =
      (surveyFrom rest (position + 1) waiting).withLoops [(opener, position)] := by
  simp [surveyFrom, Instruction.ofByte?_byte]

theorem surveyFrom_leaf {byte : UInt8} (hleaf : isBracket byte = false) (waiting : List Nat) :
    surveyFrom (byte :: rest) position waiting = surveyFrom rest (position + 1) waiting := by
  cases hbyte : Instruction.ofByte? byte with
  | none => simp [surveyFrom, hbyte]
  | some instruction =>
      obtain rfl := Instruction.ofByte?_eq_some_iff.mp hbyte
      cases instruction with
      | loopStart | loopEnd => exact absurd hleaf (by decide)
      | right | left | increment | decrement | output | input => simp [surveyFrom, hbyte]

end Equations

/-! ## Every bracket is found once -/

/-- The brackets that a survey has found, each as often as it was found. -/
def Survey.ends (survey : Survey) : List Nat :=
  survey.loops.flatMap (fun loop => [loop.1, loop.2]) ++ survey.loose

theorem perm_ends_surveyFrom (rest : List UInt8) (position : Nat) (waiting : List Nat) :
    (surveyFrom rest position waiting).ends.Perm (waiting ++ rest.findIdxs isBracket position) := by
  induction rest generalizing position waiting with
  | nil => simp [surveyFrom, Survey.ends]
  | cons byte rest ih =>
      rw [List.findIdxs_cons]
      rcases eq_loopStart_or_eq_loopEnd_or_leaf byte with rfl | rfl | hleaf
      · rw [surveyFrom_loopStart]
        exact (ih (position + 1) (position :: waiting)).trans List.perm_middle.symm
      · cases waiting with
        | nil =>
            rw [surveyFrom_loopEnd_nil]
            exact List.perm_middle.trans ((ih (position + 1) []).cons position)
        | cons opener waiting =>
            rw [surveyFrom_loopEnd_cons]
            have hrest := ((ih (position + 1) waiting).cons position).trans List.perm_middle.symm
            exact hrest.cons opener
      · rw [surveyFrom_leaf rest position hleaf, hleaf]
        exact ih (position + 1) waiting

/-- A survey finds every bracket once, and nothing else. -/
theorem perm_ends_survey (code : List UInt8) :
    (survey code).ends.Perm (code.findIdxs isBracket) :=
  perm_ends_surveyFrom code 0 []

/-! ## Loops are matched brackets -/

/-- The openers of a code that have no partner, the innermost first, whatever closers are loose. -/
inductive Standing : List UInt8 → List Nat → Prop
  | none {code : List UInt8} (hcode : Balanced code) : Standing code []
  | stray {code body : List UInt8} (hcode : Standing code []) (hbody : Balanced body) :
      Standing (code ++ Instruction.loopEnd.byte :: body) []
  | opener {code body : List UInt8} {waiting : List Nat} (houter : Standing code waiting)
      (hbody : Balanced body) :
      Standing (code ++ Instruction.loopStart.byte :: body) (code.length :: waiting)

namespace Standing

theorem append_balanced {code more : List UInt8} {waiting : List Nat}
    (hstanding : Standing code waiting) (hmore : Balanced more) :
    Standing (code ++ more) waiting := by
  cases hstanding with
  | none hcode => exact .none (hcode.append hmore)
  | stray hcode hbody =>
      rw [List.append_assoc, List.cons_append]
      exact .stray hcode (hbody.append hmore)
  | opener houter hbody =>
      rw [List.append_assoc, List.cons_append]
      exact .opener houter (hbody.append hmore)

/-- Where no opener waits, no end of the code opens more loops than it closes. -/
theorem depth_drop_nonpos {code : List UInt8} (hstanding : Standing code []) (length : Nat) :
    depth (code.drop length) ≤ 0 := by
  generalize hnothing : ([] : List Nat) = waiting at hstanding
  induction hstanding with
  | none hcode => exact hcode.depth_drop_nonpos length
  | opener => contradiction
  | @stray code body _ hbody ih =>
      have hfirst := ih rfl
      rw [List.drop_append, depth_append]
      cases length - code.length with
      | zero =>
          rw [List.drop_zero, depth_cons, delta_loopEnd, hbody.depth_eq_zero]
          omega
      | succ further =>
          have hlast := hbody.depth_drop_nonpos further
          rw [List.drop_succ_cons]
          omega

/-- A closer takes the opener that waits first. -/
theorem append_closer {code : List UInt8} {opener : Nat} {waiting : List Nat}
    (hstanding : Standing code (opener :: waiting)) :
    Standing (code ++ [Instruction.loopEnd.byte]) waiting := by
  cases hstanding with
  | opener houter hbody =>
      have hloop := houter.append_balanced (.loop hbody .nil)
      rwa [← List.cons_append, ← List.append_assoc] at hloop

/-- A closer behind the code is matched with the opener that waits first. -/
theorem matched_iff {code : List UInt8} {waiting : List Nat} (hstanding : Standing code waiting)
    (rest : List UInt8) (opener : Nat) :
    Matched (code ++ Instruction.loopEnd.byte :: rest) opener code.length ↔
      waiting.head? = some opener := by
  cases waiting with
  | nil =>
      constructor
      · intro hmatched
        have hinside := hmatched.inside
        have hopens := hmatched.opens
        rw [List.take_left] at hinside
        rw [List.getElem?_append_left hmatched.lt] at hopens
        obtain ⟨hlt, hopens⟩ := List.getElem?_eq_some_iff.mp hopens
        have hdepth := hstanding.depth_drop_nonpos opener
        rw [List.drop_eq_getElem_cons hlt, hopens, depth_cons, delta_loopStart,
          hinside.depth_eq_zero] at hdepth
        omega
      · intro hnone
        contradiction
  | cons innermost waiting =>
      cases hstanding with
      | @opener stem body _ _ hbody =>
          have hmatched := matched_append_loop stem rest hbody
          rw [← List.cons_append, ← List.append_assoc] at hmatched
          have hlength : (stem ++ Instruction.loopStart.byte :: body).length =
              stem.length + (body.length + 1) := List.length_append
          rw [hlength, List.head?_cons, Option.some.injEq]
          constructor
          · intro hother
            exact hmatched.opener_unique hother
          · rintro rfl
            exact hmatched

end Standing

/-- No opener is matched with a byte that closes nothing. -/
theorem not_matched_of_ne {read rest : List UInt8} {byte : UInt8} {opener : Nat}
    (hbyte : byte ≠ Instruction.loopEnd.byte) :
    ¬ Matched (read ++ byte :: rest) opener read.length := by
  intro hmatched
  have hcloses := hmatched.closes
  rw [List.getElem?_append_right (Nat.le_refl _), Nat.sub_self] at hcloses
  exact hbyte (Option.some.inj hcloses)

/-- A loop is closed at a position or behind it. -/
theorem matched_and_le_iff {code : List UInt8} {opener closer position : Nat} :
    Matched code opener closer ∧ position ≤ closer ↔
      Matched code opener position ∧ closer = position ∨
        Matched code opener closer ∧ position + 1 ≤ closer := by
  constructor
  · rintro ⟨hmatched, hle⟩
    rcases Nat.eq_or_lt_of_le hle with rfl | hlt
    · exact .inl ⟨hmatched, rfl⟩
    · exact .inr ⟨hmatched, hlt⟩
  · rintro (⟨hmatched, rfl⟩ | ⟨hmatched, hle⟩)
    · exact ⟨hmatched, Nat.le_refl _⟩
    · exact ⟨hmatched, Nat.le_of_succ_le hle⟩

/-- A survey of the rest of a code finds the loops that are closed there. -/
theorem mem_loops_surveyFrom_iff {read : List UInt8} {waiting : List Nat}
    (hstanding : Standing read waiting) (rest : List UInt8) {opener closer : Nat} :
    (opener, closer) ∈ (surveyFrom rest read.length waiting).loops ↔
      Matched (read ++ rest) opener closer ∧ read.length ≤ closer := by
  induction rest generalizing read waiting with
  | nil =>
      constructor
      · intro hmem
        contradiction
      · rintro ⟨hmatched, hle⟩
        have := hmatched.closer_lt
        rw [List.append_nil] at this
        omega
  | cons byte rest ih =>
      have hread : read ++ byte :: rest = read ++ [byte] ++ rest := by simp
      have hlength : (read ++ [byte]).length = read.length + 1 := List.length_append
      have hlater : ∀ {later : List Nat}, Standing (read ++ [byte]) later →
          ((opener, closer) ∈ (surveyFrom rest (read.length + 1) later).loops ↔
            Matched (read ++ byte :: rest) opener closer ∧ read.length + 1 ≤ closer) := by
        intro later hstanding
        rw [hread, ← hlength]
        exact ih hstanding
      rw [matched_and_le_iff]
      rcases eq_loopStart_or_eq_loopEnd_or_leaf byte with rfl | rfl | hleaf
      · have hne : Instruction.loopStart.byte ≠ Instruction.loopEnd.byte := by decide
        rw [surveyFrom_loopStart, hlater (.opener hstanding .nil)]
        simp [not_matched_of_ne hne]
      · cases waiting with
        | nil =>
            rw [surveyFrom_loopEnd_nil, hstanding.matched_iff]
            change (opener, closer) ∈ (surveyFrom rest (read.length + 1) []).loops ↔ _
            rw [hlater (.stray hstanding .nil)]
            simp
        | cons innermost waiting =>
            rw [surveyFrom_loopEnd_cons, hstanding.matched_iff]
            change (opener, closer) ∈ (innermost, read.length) ::
              (surveyFrom rest (read.length + 1) waiting).loops ↔ _
            rw [List.mem_cons, hlater hstanding.append_closer, Prod.mk.injEq, List.head?_cons,
              Option.some.injEq, @eq_comm _ opener]
      · have hne : byte ≠ Instruction.loopEnd.byte := by
          rintro rfl
          contradiction
        rw [surveyFrom_leaf rest _ hleaf, hlater (hstanding.append_balanced (.leaf hleaf .nil))]
        simp [not_matched_of_ne hne]

/-- The loops of a program are its matched brackets. -/
theorem mem_loops_survey_iff {code : List UInt8} {opener closer : Nat} :
    (opener, closer) ∈ (survey code).loops ↔ Matched code opener closer := by
  have hiff : (opener, closer) ∈ (survey code).loops ↔
      Matched ([] ++ code) opener closer ∧ 0 ≤ closer :=
    mem_loops_surveyFrom_iff (.none .nil) code
  simpa using hiff

/-- The loose brackets of a program are those without a partner. -/
theorem mem_loose_survey_iff {code : List UInt8} {position : Nat} :
    position ∈ (survey code).loose ↔
      position ∈ code.findIdxs isBracket ∧ ∀ partner, ¬ Partnered code position partner := by
  have hperm := perm_ends_survey code
  have hnodup := hperm.nodup_iff.mpr List.nodup_findIdxs
  have hends : position ∈ (survey code).loops.flatMap (fun loop => [loop.1, loop.2]) ↔
      ∃ partner, Partnered code position partner :=
    mem_ends_iff fun opener closer => mem_loops_survey_iff
  rw [← hperm.mem_iff, ← not_exists, ← hends, Survey.ends, List.mem_append]
  constructor
  · intro hloose
    exact ⟨.inr hloose, fun hlooped => (List.nodup_append.mp hnodup).2.2 _ hlooped _ hloose rfl⟩
  · rintro ⟨hlooped | hloose, hnone⟩
    · exact absurd hlooped hnone
    · exact hloose

end Brackets

end TapeMachine
