/-
# What reports show

A report can be made for every position of a source, be there a bracket or any other byte. Its
excerpt shows the line in which that byte stands and two lines on either side, as far as there are
such lines. A position that counts from the back is reported like the one that counts from the
front, but for the position itself.

The number of the line is counted in bytes and the lines are those of the decoded source, so it has
to be known that the two views have the same lines; then the marked line is always among them. The
caret takes one blank for each character in front of it, of which there are no more than bytes, so
whoever has the memory for a source can draw the excerpts of all its reports.
-/

import TapeMachine.Program.Report
import TapeMachine.Proofs.Source.Excerpt.Reading
import TapeMachine.Proofs.Source.Lines

namespace TapeMachine

namespace Index

variable {size : Nat} {position : Int}

theorem exists_resolve_eq_some (hlow : -(size : Int) ≤ position) (hhigh : position < size) :
    ∃ index, resolve size position = some index := by
  rw [← Option.ne_none_iff_exists', ne_eq, resolve_eq_none_iff]
  omega

variable (hlow : -(size : Int) ≤ position) (hneg : position < 0)
include hlow hneg

theorem resolve_add_size : resolve size (position + size) = resolve size position := by
  have hfront : 0 ≤ position + size ∧ position + size < size := by omega
  have hback : ¬ (0 ≤ position ∧ position < size) := by omega
  rw [resolve, dif_pos hfront, resolve, dif_neg hback, dif_pos ⟨hlow, hneg⟩]

theorem cut_add_size : cut size (position + size) = cut size position := by
  have hfront : 0 ≤ position + size := by omega
  have hback : ¬ 0 ≤ position := by omega
  have hcut : min (position + size).toNat size = (position + size).toNat := by omega
  rw [cut, if_pos hfront, cut, if_neg hback, hcut]

end Index

namespace BracketReport

variable {source : List UInt8} {position : Int}

/-- A position that counts from the back is reported like the one that counts from the front. -/
theorem ofPosition_add_length (hlow : -(source.length : Int) ≤ position) (hneg : position < 0) :
    ofPosition source (position + source.length) =
      (ofPosition source position).map ({ · with position := position + source.length }) := by
  obtain ⟨index, hresolve⟩ := Index.exists_resolve_eq_some hlow (by omega)
  have hplace : Position.of source (position + source.length) = Position.of source position := by
    rw [Position.of, Index.cut_add_size hlow hneg, Position.of]
  simp only [ofPosition, Index.resolve_add_size hlow hneg, hresolve, make, hplace]
  rfl

/-- A report is made for every position of a source. Its excerpt shows the lines of the source that
are at most two away from the line in which the position stands, marks that line and no other, and
points below it. It can be drawn by whoever has the memory for the source. A position that counts
from the back gets the report of the one that counts from the front. -/
theorem position_reported_with_lines_around (hlow : -(source.length : Int) ≤ position)
    (hhigh : position < source.length) :
    ∃ report rows, ofPosition source position = .ok report ∧
      Excerpt.read? report.context = some rows ∧
        Excerpt.ShowsAround (sourceLines source) (Utf8.decode (Position.lineOf source position))
          report.line report.column 2 rows ∧
        (∀ host : Host, source.length ≤ host.memory →
          Excerpt.draw host (sourceLines source) report.line report.column 2 =
            .ok report.context) ∧
          (position < 0 → ofPosition source (position + source.length) =
            .ok { report with position := position + source.length }) := by
  obtain ⟨index, hresolve⟩ := Index.exists_resolve_eq_some hlow hhigh
  have hreport : ofPosition source position = .ok (make source position (source.get index)) := by
    rw [ofPosition, hresolve]
  have hline : 1 ≤ (Position.of source position).line := Nat.succ_pos _
  have hcolumn : 1 ≤ (Position.of source position).column := Nat.succ_pos _
  obtain ⟨rows, hread, hrows⟩ := Excerpt.exists_read?_write 2 lineFeed_notMem_of_mem_sourceLines
    hline (Position.getElem?_sourceLines source position) hcolumn
  refine ⟨_, rows, hreport, hread, hrows, fun host hmemory => ?_, fun hneg => ?_⟩
  · have hle := Position.column_of_le source position
    rw [Index.cut_of_resolve hresolve] at hle
    exact Excerpt.draw_eq_ok hcolumn ((hle.trans index.isLt).trans hmemory)
  · rw [ofPosition_add_length hlow hneg, hreport]
    rfl

/-- The last byte of a character in the fourth of five lines, the third of which is ill formed. -/
theorem position_reported_inside_character :
    let source : List UInt8 :=
      [0x2B, 0x0A, 0x2D, 0x0A, 0xFF, 0x0A, 0x5B, 0xE2, 0x82, 0xAC, 0x5D, 0x0A]
    (-(source.length : Int) ≤ -3 ∧ -3 < (source.length : Int)) ∧
      ∃ report rows, ofPosition source (-3) = .ok report ∧ report.line = 4 ∧ report.column = 3 ∧
        Excerpt.read? report.context = some rows ∧
          Excerpt.ShowsAround [['+'], ['-'], ['\uFFFD'], ['[', '€', ']'], []] ['[', '€', ']'] 4 3 2
            rows ∧
          ofPosition source 9 = .ok { report with position := 9 } := by
  intro source
  have hlow : -(source.length : Int) ≤ -3 := by decide
  have hhigh : -3 < (source.length : Int) := by decide
  obtain ⟨report, rows, hreport, hread, hrows, -, hback⟩ :=
    position_reported_with_lines_around hlow hhigh
  have hmade : ofPosition source (-3) = .ok (make source (-3) 0xAC) := by rfl
  obtain rfl := Except.ok.inj (hmade.symm.trans hreport)
  have hline : (make source (-3) 0xAC).line = 4 := by decide
  have hcolumn : (make source (-3) 0xAC).column = 3 := by decide
  have hlines : sourceLines source = [['+'], ['-'], ['\uFFFD'], ['[', '€', ']'], []] := by decide
  have htext : Utf8.decode (Position.lineOf source (-3)) = ['[', '€', ']'] := by decide
  rw [hlines, htext, hline, hcolumn] at hrows
  exact ⟨⟨hlow, hhigh⟩, _, rows, hreport, hline, hcolumn, hread, hrows, hback (by decide)⟩

example :
    (make [0x2B, 0x0A, 0x2D, 0x0A, 0xFF, 0x0A, 0x5B, 0xE2, 0x82, 0xAC, 0x5D, 0x0A] 9 0xAC).context =
      "     2 | -\n     3 | \uFFFD\n>    4 | [€]\n       |   ^\n     5 | " := by decide

end BracketReport

end TapeMachine
