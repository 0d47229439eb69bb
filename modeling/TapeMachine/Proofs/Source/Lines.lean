/-
# Lines of bytes

A source can be cut into lines before it is decoded or after it, with the same result. So the line
of bytes in which a byte stands is decoded to the line with the number of its place, whether or not
the byte is the beginning of a character or ends the line.
-/

import TapeMachine.Proofs.Source.Position

namespace TapeMachine

open Utf8

namespace Position

/-- The line of bytes in which a signed position stands. A line feed stands in the line that it
ends. -/
def lineOf (source : List UInt8) (position : Int) : List UInt8 :=
  lastLine (source.take (Index.cut source.length position)) ++
    (source.drop (Index.cut source.length position)).takeWhile (· ≠ lineFeed)

end Position

open Position

/-- The lines of a source are its lines of bytes, decoded. -/
theorem sourceLines_eq_map (source : List UInt8) :
    sourceLines source = (source.splitOn lineFeed).map decode := by
  rw [sourceLines]
  -- Byte by byte the decoder may be inside a character; behind a line it never is.
  induction source using lineInduction lineFeed with
  | last line hline =>
      rw [List.splitOn_eq_singleton (lineFeed_notMem_decode hline), List.splitOn_eq_singleton hline]
      rfl
  | more line rest hline ih =>
      have hdecode : decode (line ++ lineFeed :: rest) = decode line ++ '\n' :: decode rest :=
        decode_append_cons line (by decide) rest
      rw [hdecode, List.splitOn_append_cons_self_of_not_mem (lineFeed_notMem_decode hline), ih,
        List.splitOn_append_cons_self_of_not_mem hline, List.map_cons]

theorem lineFeed_notMem_of_mem_sourceLines {source : List UInt8} :
    ∀ text ∈ sourceLines source, '\n' ∉ text :=
  fun _ => notMem_of_mem_splitOn

namespace Position

variable (source : List UInt8) (position : Int)

/-- The line with the number of a place is the one in which the position stands. -/
theorem getElem?_sourceLines :
    (sourceLines source)[(of source position).line - 1]? =
      some (decode (lineOf source position)) := by
  have hline := getElem?_splitOn_append lineFeed (source.take (Index.cut source.length position))
    (source.drop (Index.cut source.length position))
  rw [List.take_append_drop] at hline
  rw [sourceLines_eq_map, List.getElem?_map]
  exact congrArg (Option.map decode) hline

/-- A column is counted in characters, of which there are no more than bytes in front of it. -/
theorem column_of_le :
    (of source position).column ≤ Index.cut source.length position + 1 := by
  have hdecode := length_decode_le (lastLine (source.take (Index.cut source.length position)))
  have hlast : (lastLine (source.take (Index.cut source.length position))).length ≤
      Index.cut source.length position := by
    rw [lastLine, List.length_reverse]
    refine (List.takeWhile_sublist _).length_le.trans ?_
    rw [List.length_reverse]
    exact List.length_take_le _ _
  exact Nat.succ_le_succ (hdecode.trans hlast)

end Position

end TapeMachine
