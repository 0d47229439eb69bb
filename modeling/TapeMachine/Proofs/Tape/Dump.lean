/-
# What a dump tells

A dump can be read back. Its rows are labelled with the indices of their first cells, all of them
are full but perhaps the last, which is not empty, and their values in order are the cells that
were asked for. If there are none of these, there is no row and no text.
-/

import TapeMachine.Proofs.Text.Column
import TapeMachine.Tape.Dump
import TapeMachine.Tape.Dump.Reading

namespace TapeMachine.Dump

section Reading

variable {α β γ : Type}

/-- A list is read back if each of its elements is. -/
theorem mapM_map_eq_some {read : β → Option γ} {write : α → β} {value : α → γ} {elements : List α}
    (hread : ∀ element ∈ elements, read (write element) = some (value element)) :
    (elements.map write).mapM read = some (elements.map value) := by
  induction elements with
  | nil => rfl
  | cons element elements ih =>
      have hrest := ih fun other hother => hread other (List.mem_cons_of_mem _ hother)
      rw [List.map_cons, List.mapM_cons, hread element List.mem_cons_self, hrest]
      rfl

@[simp]
theorem number?_toDigits (value : Nat) : number? (Nat.toDigits 10 value) = some value := by
  have hdigits : (Nat.toDigits 10 value).all Char.isDigit = true :=
    List.all_eq_true.mpr fun _ => Column.isDigit_of_mem_toDigits
  rw [number?, if_pos ⟨Nat.toDigits_ne_nil, hdigits⟩, Nat.ofDigitChars_ten_toDigits]

theorem notMem_label (index : Nat) {char : Char} (hdigit : char.isDigit = false)
    (hblank : char ≠ ' ') : char ∉ label index :=
  Column.notMem_leftpad 5 index hdigit hblank

theorem notMem_words (values : List Nat) {char : Char} (hdigit : char.isDigit = false) :
    ∀ word ∈ values.map (Nat.toDigits 10), char ∉ word := by
  intro word hword
  obtain ⟨value, -, rfl⟩ := List.mem_map.mp hword
  exact Column.notMem_toDigits value hdigit

/-- A row with a value in it is read back. -/
theorem readRow?_row (index : Nat) {values : List Nat} (hvalues : values ≠ []) :
    readRow? (row index values) = some ⟨index, values⟩ := by
  have hlabel : ∀ char ∈ label index, decide (char ≠ ':') = true := by
    intro char hchar
    refine decide_eq_true fun hcolon => ?_
    exact notMem_label index (by decide) (by decide) (hcolon ▸ hchar)
  have hwords : (List.intercalate [' '] (values.map (Nat.toDigits 10))).splitOn ' ' =
      values.map (Nat.toDigits 10) := by
    apply List.splitOn_intercalate
    · exact notMem_words values (by decide)
    · simpa using hvalues
  have hnumbers : (values.map (Nat.toDigits 10)).mapM number? = some values := by
    rw [mapM_map_eq_some fun value _ => number?_toDigits value, List.map_id']
  have hindex : (label index).dropWhile (· = ' ') = Nat.toDigits 10 index :=
    Column.dropWhile_leftpad 5 index
  rw [readRow?, row, List.dropWhile_append_of_pos hlabel, List.takeWhile_append_of_pos hlabel]
  simp [hindex, hwords, hnumbers]

theorem notMem_intercalate {char between : Char} (hchar : char ≠ between) {words : List (List Char)}
    (hwords : ∀ word ∈ words, char ∉ word) : char ∉ List.intercalate [between] words := by
  induction words with
  | nil => exact List.not_mem_nil
  | cons word words ih =>
      have hword := hwords word List.mem_cons_self
      have hrest := ih fun other hother => hwords other (List.mem_cons_of_mem _ hother)
      cases words with
      | nil => simpa using hword
      | cons next words =>
          rw [List.intercalate_cons_cons]
          simp [hword, hchar, hrest]

theorem lineFeed_notMem_row (index : Nat) (values : List Nat) : '\n' ∉ row index values := by
  have hlabel : '\n' ∉ label index := notMem_label index (by decide) (by decide)
  have hvalues : '\n' ∉ List.intercalate [' '] (values.map (Nat.toDigits 10)) :=
    notMem_intercalate (by decide) (notMem_words values (by decide))
  simp [row, hlabel, hvalues]

theorem row_ne_nil (index : Nat) (values : List Nat) : row index values ≠ [] := by
  simp [row]

variable {perRow : Nat} {values : Array Nat}

/-- The lines of a dump are its rows. -/
theorem splitOn_rows (hrows : rows perRow values ≠ []) :
    (List.intercalate ['\n'] (rows perRow values)).splitOn '\n' = rows perRow values := by
  refine List.splitOn_intercalate '\n' (fun line hline => ?_) hrows
  obtain ⟨number, -, rfl⟩ := List.mem_map.mp hline
  exact lineFeed_notMem_row _ _

theorem intercalate_rows_eq_nil_iff :
    List.intercalate ['\n'] (rows perRow values) = [] ↔ rows perRow values = [] := by
  constructor
  · intro htext
    by_contra hrows
    have hline : [] ∈ rows perRow values := by
      rw [← splitOn_rows hrows, htext]
      exact List.mem_singleton_self []
    obtain ⟨number, -, hrow⟩ := List.mem_map.mp hline
    exact row_ne_nil _ _ hrow
  · intro hrows
    rw [hrows]
    rfl

end Reading

section Chunks

variable (values : Array Nat) (perRow : Nat)

/-- The values of the row with some number. -/
def chunk (number : Nat) : List Nat :=
  (values.extract (number * perRow) (number * perRow + perRow)).toList

theorem chunk_eq (number : Nat) :
    chunk values perRow number = (values.toList.drop (number * perRow)).take perRow := by
  rw [chunk, Array.toList_extract, List.extract_eq_take_drop, Nat.add_sub_cancel_left]

theorem length_chunk (number : Nat) :
    (chunk values perRow number).length = min perRow (values.size - number * perRow) := by
  rw [chunk_eq, List.length_take, List.length_drop, Array.length_toList]

/-- One row after the other shows one value after the other. -/
theorem flatMap_chunk (count : Nat) :
    (List.range count).flatMap (chunk values perRow) = values.toList.take (count * perRow) := by
  induction count with
  | zero => simp
  | succ count ih =>
      rw [List.range_succ, List.flatMap_append, ih, List.flatMap_singleton, chunk_eq, Nat.succ_mul,
        List.take_add]

/-- How many rows there are. -/
def height : Nat := (values.size + perRow - 1) / perRow

variable {values perRow} (hperRow : 0 < perRow)
include hperRow

theorem lt_height_iff {number : Nat} :
    number < height values perRow ↔ number * perRow < values.size := by
  rw [height, ← Nat.succ_le_iff, Nat.le_div_iff_mul_le hperRow, Nat.succ_mul]
  omega

theorem size_le_height : values.size ≤ height values perRow * perRow :=
  Nat.not_lt.mp fun hlt => Nat.lt_irrefl _ ((lt_height_iff hperRow).mpr hlt)

end Chunks

/-- How values are laid out in rows, `perRow` to a row. -/
structure Laid (perRow : Nat) (values : List Nat) (rows : List Row) : Prop where
  labels : rows.map Row.label = (List.range rows.length).map (· * perRow)
  full : ∀ row ∈ rows.dropLast, row.values.length = perRow
  length_values : ∀ row ∈ rows, 1 ≤ row.values.length ∧ row.values.length ≤ perRow
  values : rows.flatMap Row.values = values

/-- What the rows of some values say. -/
def contents (perRow : Nat) (values : Array Nat) : List Row :=
  (List.range (height values perRow)).map fun number =>
    ⟨number * perRow, chunk values perRow number⟩

section Contents

variable {values : Array Nat} {perRow : Nat} (hperRow : 0 < perRow)
include hperRow

theorem laid_contents : Laid perRow values.toList (contents perRow values) := by
  constructor
  case labels => simp [contents, Function.comp_def]
  case full =>
    intro row hrow
    rw [contents, List.dropLast_eq_take, ← List.map_take, List.take_range, List.length_map,
      List.length_range] at hrow
    obtain ⟨number, hnumber, rfl⟩ := List.mem_map.mp hrow
    have hnext : number + 1 < height values perRow := by
      have hlt := List.mem_range.mp hnumber
      omega
    have hsize := (lt_height_iff hperRow).mp hnext
    rw [Nat.succ_mul] at hsize
    rw [length_chunk]
    omega
  case length_values =>
    intro row hrow
    obtain ⟨number, hnumber, rfl⟩ := List.mem_map.mp hrow
    have hsize := (lt_height_iff hperRow).mp (List.mem_range.mp hnumber)
    rw [length_chunk]
    omega
  case values =>
    rw [contents, List.flatMap_map, flatMap_chunk]
    exact List.take_of_length_le (size_le_height hperRow)

theorem contents_eq_nil_iff : contents perRow values = [] ↔ values.toList = [] := by
  have hfirst : 0 < height values perRow ↔ 0 < values.size := by
    rw [lt_height_iff hperRow, Nat.zero_mul]
  rw [contents, List.map_eq_nil_iff, List.range_eq_nil, ← List.length_eq_zero_iff,
    Array.length_toList]
  omega

/-- The rows that are written are those that are read. -/
theorem mapM_readRow?_rows :
    (rows perRow values).mapM readRow? = some (contents perRow values) := by
  refine mapM_map_eq_some fun number hnumber => readRow?_row _ fun hnil => ?_
  have hlength := length_chunk values perRow number
  have hsize := (lt_height_iff hperRow).mp (List.mem_range.mp hnumber)
  rw [chunk, hnil, List.length_nil] at hlength
  omega

theorem ofList_rows_eq_empty_iff :
    String.ofList (List.intercalate ['\n'] (rows perRow values)) = "" ↔ values.toList = [] := by
  rw [String.ofList_eq_empty_iff, intercalate_rows_eq_nil_iff, ← contents_eq_nil_iff hperRow, rows,
    contents, List.map_eq_nil_iff, List.map_eq_nil_iff]
  rfl

/-- The text of a dump is read back. -/
theorem read?_rows : read? (String.ofList (List.intercalate ['\n'] (rows perRow values))) =
    some (contents perRow values) := by
  by_cases hvalues : values.toList = []
  · rw [read?, if_pos ((ofList_rows_eq_empty_iff hperRow).mpr hvalues),
      (contents_eq_nil_iff hperRow).mpr hvalues]
  · have htext := (ofList_rows_eq_empty_iff hperRow).not.mpr hvalues
    have hrows : rows perRow values ≠ [] := by
      intro hnil
      rw [hnil] at htext
      exact htext rfl
    rw [read?, if_neg htext, String.toList_ofList, splitOn_rows hrows, mapM_readRow?_rows hperRow]

end Contents

/-- The cells that a dump is to show: all of them, so many from the front, or all but so many at the
end. -/
def asked (cells : List Nat) : Option Int → List Nat
  | none => cells
  | some count =>
      if 0 ≤ count then cells.take count.toNat else cells.take (cells.length - count.natAbs)

theorem toList_selection (cells : Array Nat) (count : Option Int) :
    (selection cells count).toList = asked cells.toList count := by
  cases count with
  | none => rfl
  | some count =>
      rw [selection, asked, Array.toList_extract, List.extract_eq_take_drop, List.drop_zero,
        Nat.sub_zero, Index.cut, Array.length_toList]
      by_cases hcount : 0 ≤ count
      · rw [if_pos hcount, if_pos hcount, ← Array.length_toList, ← List.take_eq_take_min]
      · rw [if_neg hcount, if_neg hcount]
        congr 1
        omega

/-- The text of a dump is read back as rows of the cells that are asked for. There is no row, and no
text, if and only if none is asked for. -/
theorem dump_read_back (tape : Tape) (count : Option Int) {perRow : Nat} (hperRow : 0 < perRow) :
    ∃ text rows, tape.dump count perRow = .ok text ∧ read? text = some rows ∧
      Laid perRow (asked tape.cells.toList count) rows ∧
        (rows = [] ↔ asked tape.cells.toList count = []) ∧
          (text = "" ↔ asked tape.cells.toList count = []) := by
  have hdump : tape.dump count perRow =
      .ok (String.ofList (List.intercalate ['\n'] (rows perRow (selection tape.cells count)))) := by
    have hzero : (perRow : Int) ≠ 0 := by omega
    have hneg : ¬ (perRow : Int) < 0 := by omega
    rw [Tape.dump, if_neg hzero, if_neg hneg, Int.toNat_natCast]
  rw [← toList_selection]
  exact ⟨_, _, hdump, read?_rows hperRow, laid_contents hperRow, contents_eq_nil_iff hperRow,
    ofList_rows_eq_empty_iff hperRow⟩

/-- Four of five cells, three to a row. -/
theorem dump_read_back_but_last_cell :
    0 < 3 ∧ ∃ text rows,
      (⟨#[7, 300, 0, 65535, 1], 2⟩ : Tape).dump (some (-1)) (3 : Nat) = .ok text ∧
        read? text = some rows ∧ rows ≠ [] ∧ rows.flatMap Row.values = [7, 300, 0, 65535] := by
  have hperRow : 0 < 3 := by decide
  obtain ⟨text, rows, hdump, hread, hlaid, hempty, -⟩ :=
    dump_read_back ⟨#[7, 300, 0, 65535, 1], 2⟩ (some (-1)) hperRow
  exact ⟨hperRow, text, rows, hdump, hread, hempty.not.mpr (by decide), hlaid.values⟩

example : (⟨#[7, 300, 0, 65535, 1], 2⟩ : Tape).dump (some (-1)) 3 =
    .ok "    0: 7 300 0\n    3: 65535" := by cbv

end TapeMachine.Dump
