/-
# Where reports point

A report on a bracket names a line and a column that have been counted in the bytes in front of it,
and shows lines that have been decoded from the whole source. The two agree in every source, well
formed or not: the character that the lines show at that place is the bracket. The same is true of
every ASCII byte that ends no line, and the places of these bytes are all different and in the order
of the source.
-/

import Mathlib.Order.Fin.Basic
import TapeMachine.Proofs.Program.JumpTable
import TapeMachine.Proofs.Source.Position

namespace TapeMachine

open Position

namespace Instruction

/-- An instruction is written by a byte of a line. -/
theorem inLine_byte (instruction : Instruction) : InLine instruction.byte := by
  cases instruction <;> exact ⟨by decide, by decide⟩

end Instruction

namespace Brackets

theorem exists_get_append_cons (stem rest : List UInt8) (byte : UInt8) :
    ∃ index : Fin (stem ++ byte :: rest).length,
      stem.length = (index : Nat) ∧ (stem ++ byte :: rest).get index = byte := by
  have hlt : stem.length < (stem ++ byte :: rest).length := by
    rw [List.length_append]
    exact Nat.lt_add_of_pos_right (Nat.succ_pos _)
  refine ⟨⟨stem.length, hlt⟩, rfl, ?_⟩
  rw [List.get_eq_getElem, List.getElem_append_right (Nat.le_refl _)]
  simp

/-- A bracket that cannot be paired is a byte of the code. -/
theorem Unpaired.exists_get_eq {code : List UInt8} {unmatched : UnmatchedBracket}
    (hunpaired : Unpaired code unmatched) :
    ∃ index : Fin code.length, unmatched.position = index ∧
      code.get index = unmatched.bracket.byte := by
  cases hunpaired with
  | stray _ => exact exists_get_append_cons _ _ _
  | unclosed _ _ => exact exists_get_append_cons _ _ _

/-- A report on a bracket that cannot be paired points at the bracket. -/
theorem shows_of_table_eq_error {source : List UInt8} {report : BracketReport}
    (htable : table source = .error report) :
    Shows (sourceLines source) ⟨report.line, report.column⟩ report.bracket := by
  have hspec := table_spec source
  rw [htable] at hspec
  obtain ⟨⟨position, bracket⟩, hunpaired, rfl⟩ := hspec
  obtain ⟨index, rfl, hget⟩ := hunpaired.exists_get_eq
  have hbyte := bracket.inLine_byte
  rw [← hget] at hbyte
  have hshows := hbyte.shows_of (Index.resolve_ofNat index.isLt)
  rwa [hget] at hshows

end Brackets

namespace Position

/-- Every ASCII byte of a source that ends no line is shown at its place among the decoded lines,
whatever bytes stand around it. The places of these bytes are in reading order, so no two of them
are the same. And a report on a bracket that cannot be paired points at that bracket. -/
theorem bytes_of_lines_shown_in_reading_order (source : List UInt8) :
    (∀ (position : Int) (index : Fin source.length),
        Index.resolve source.length position = some index → InLine (source.get index) →
          (of source position).Shows (sourceLines source)
            (Char.ofNat (source.get index).toNat)) ∧
      (∀ first second : Fin source.length,
        InLine (source.get first) → InLine (source.get second) →
          (first < second ↔
              (of source (first : Nat)).Before (of source (second : Nat))) ∧
            (of source (first : Nat) = of source (second : Nat) → first = second)) ∧
      ∀ report, Brackets.table source = .error report →
        Shows (sourceLines source) ⟨report.line, report.column⟩ report.bracket := by
  refine ⟨fun position index hresolve hbyte => hbyte.shows_of hresolve, ?_,
    fun report htable => Brackets.shows_of_table_eq_error htable⟩
  intro first second hfirst hsecond
  rcases lt_trichotomy first second with hlt | rfl | hgt
  · have hbefore := hfirst.of_before_of hlt
    exact ⟨iff_of_true hlt hbefore, fun heq => absurd heq hbefore.ne⟩
  · exact ⟨iff_of_false (lt_irrefl _) fun hbefore => hbefore.ne rfl, fun _ => rfl⟩
  · have hbefore := hsecond.of_before_of hgt
    exact ⟨iff_of_false (lt_asymm hgt) hbefore.asymm, fun heq => absurd heq.symm hbefore.ne⟩

/-- A closer behind two bytes of an unfinished character, and an opener behind a surrogate in the
next line. -/
theorem bytes_of_lines_shown_of_ill_formed :
    let source : List UInt8 := [0xE2, 0x82, 0x5D, 0xFF, 0x0A, 0xED, 0xA0, 0x80, 0x5B]
    (of source 2).Shows (sourceLines source) ']' ∧ of source 2 = ⟨1, 2⟩ ∧
      (of source (-1)).Shows (sourceLines source) '[' ∧ of source (-1) = ⟨2, 4⟩ ∧
      ∃ report, Brackets.table source = .error report ∧
        Shows (sourceLines source) ⟨report.line, report.column⟩ ']' := by
  intro source
  obtain ⟨hshows, -, hreport⟩ := bytes_of_lines_shown_in_reading_order source
  have htable : Brackets.table source = .error (BracketReport.make source 2 0x5D) := by
    decide +kernel
  exact ⟨hshows 2 ⟨2, by decide⟩ (by decide) ⟨by decide, by decide⟩, by decide,
    hshows (-1) ⟨8, by decide⟩ (by decide) ⟨by decide, by decide⟩, by decide, _, htable,
    hreport _ htable⟩

end Position

end TapeMachine
