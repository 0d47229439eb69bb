/-
# What an excerpt points at

An excerpt around a line of a text is made of the lines in front of it, the line itself with a
caret below, and the lines behind it. Only the row of the line is marked. If no line holds a line
feed, these are the rows that the excerpt is read in.

A line number takes at least four columns and more if it needs them. The row of the caret always
leaves four. So the caret is below the character of its column in the lines that are numbered with
four digits or fewer, and in all others it is too far to the left.
-/

import Mathlib.Data.List.Basic
import TapeMachine.Proofs.Text.Column
import TapeMachine.Source.Excerpt

namespace TapeMachine.Excerpt

/-- Lines that are not marked, numbered from `first` on. -/
def plainRows (first : Nat) (lines : List (List Char)) : List (List Char) :=
  (lines.zipIdx first).map fun (text, number) => lineRow false number text

/-- What an excerpt shows of one numbered line. -/
def rowsOf (marked column : Int) : List Char × Nat → List (List Char) := fun (text, number) =>
  if number = marked then [lineRow true number text, caretRow column]
  else [lineRow false number text]

/-- Lines with other numbers are not marked. -/
theorem flatMap_rowsOf {marked column : Int} {first : Nat} {lines : List (List Char)}
    (hother : ∀ number : Nat, first ≤ number → number < first + lines.length → number ≠ marked) :
    (lines.zipIdx first).flatMap (rowsOf marked column) = plainRows first lines := by
  rw [plainRows, List.map_eq_flatMap]
  refine List.flatMap_congr fun ⟨text, number⟩ hmem => ?_
  obtain ⟨hfirst, hlast, -⟩ := List.mem_zipIdx hmem
  exact if_neg (hother number hfirst hlast)

/-- The line with the marked number is marked, and the caret is drawn below it. -/
theorem flatMap_rowsOf_append_cons (before after : List (List Char)) (text : List Char)
    (column : Int) (first : Nat) :
    ((before ++ text :: after).zipIdx first).flatMap
        (rowsOf (first + before.length : Nat) column) =
      plainRows first before ++ lineRow true (first + before.length) text :: caretRow column ::
        plainRows (first + before.length + 1) after := by
  have hbefore : (before.zipIdx first).flatMap (rowsOf (first + before.length : Nat) column) =
      plainRows first before := flatMap_rowsOf fun number _ hlt => by omega
  have hafter : (after.zipIdx (first + before.length + 1)).flatMap
      (rowsOf (first + before.length : Nat) column) =
        plainRows (first + before.length + 1) after := flatMap_rowsOf fun number hle _ => by omega
  have htext : rowsOf (first + before.length : Nat) column (text, first + before.length) =
      [lineRow true (first + before.length) text, caretRow column] := if_pos rfl
  rw [List.zipIdx_append, List.flatMap_append, List.zipIdx_cons, List.flatMap_cons, hbefore, htext,
    hafter]
  rfl

theorem take_drop_append {α : Type} (front back : List α) {start : Nat}
    (hstart : start ≤ front.length) (count : Nat) :
    ((front ++ back).drop start).take (front.length + count - start) =
      front.drop start ++ back.take count := by
  have hfront : (front.drop start).take (front.length + count - start) = front.drop start :=
    List.take_of_length_le (by rw [List.length_drop]; omega)
  have hback : front.length + count - start - (front.length - start) = count := by omega
  rw [List.drop_append_of_le_length hstart, List.take_append, List.length_drop, hfront, hback]

/-- The lines that an excerpt shows: those at most `context` away from the one that is asked for. -/
theorem rows_eq_flatMap (front back : List (List Char)) (text : List Char) (column : Int)
    (context : Nat) :
    rows (front ++ text :: back) (front.length + 1 : Nat) column context =
      ((front.drop (front.length - context) ++ text :: back.take context).zipIdx
        (front.length - context + 1)).flatMap (rowsOf (front.length + 1 : Nat) column) := by
  have hmarked : max 1 ((front.length + 1 : Nat) : Int) = (front.length + 1 : Nat) := by omega
  have hfirst : (max 1 (((front.length + 1 : Nat) : Int) - context)).toNat =
      front.length - context + 1 := by omega
  have hcount : (min ((front ++ text :: back).length : Int)
      (((front.length + 1 : Nat) : Int) + context)).toNat + 1 - (front.length - context + 1) =
        front.length + (min context back.length + 1) - (front.length - context) := by
    rw [List.length_append, List.length_cons]
    omega
  rw [rows, hmarked, hfirst, hcount, Nat.add_sub_cancel, take_drop_append _ _ (Nat.sub_le _ _),
    List.take_succ_cons, ← List.take_eq_take_min]
  rfl

/-- The rows of an excerpt: unmarked lines, the marked line with its caret, unmarked lines. -/
theorem rows_eq (front back : List (List Char)) (text : List Char) (column : Int)
    (context : Nat) :
    rows (front ++ text :: back) (front.length + 1 : Nat) column context =
      plainRows (front.length - context + 1) (front.drop (front.length - context)) ++
        lineRow true (front.length + 1) text :: caretRow column ::
          plainRows (front.length + 2) (back.take context) := by
  have hnumber : front.length - context + 1 + (front.drop (front.length - context)).length =
      front.length + 1 := by
    rw [List.length_drop]
    omega
  have hrows := flatMap_rowsOf_append_cons (front.drop (front.length - context))
    (back.take context) text column (front.length - context + 1)
  rw [hnumber] at hrows
  rw [rows_eq_flatMap, hrows]

theorem rows_ne_nil (front back : List (List Char)) (text : List Char) (column : Int)
    (context : Nat) :
    rows (front ++ text :: back) (front.length + 1 : Nat) column context ≠ [] := by
  rw [rows_eq]
  exact List.append_ne_nil_of_right_ne_nil _ (List.cons_ne_nil _ _)

/-- What stands in front of the marked line. -/
def label (number : Nat) : List Char := '>' :: ' ' :: lineNumber number ++ rule

theorem length_label (number : Nat) :
    (label number).length = max 4 (Nat.toDigits 10 number).length + 5 := by
  rw [label, lineNumber, List.length_append, List.length_cons, List.length_cons,
    List.length_leftpad]
  rfl

/-- Numbers with four digits or fewer leave the label as wide as the row of the caret. -/
theorem length_label_eq_iff (number : Nat) : (label number).length = 9 ↔ number < 10000 := by
  have hdigits := @Nat.length_toDigits_le_iff 10 number 4 (by decide) (by decide)
  rw [length_label]
  omega

theorem head?_of_mem_plainRows {first : Nat} {lines : List (List Char)} {row : List Char}
    (hrow : row ∈ plainRows first lines) : row.head? = some ' ' := by
  obtain ⟨⟨text, number⟩, -, rfl⟩ := List.mem_map.mp hrow
  rfl

section LineFeeds

theorem lineFeed_notMem_lineNumber (number : Nat) : '\n' ∉ lineNumber number :=
  Column.notMem_leftpad 4 number (by decide) (by decide)

theorem lineFeed_notMem_lineRow (marked : Bool) (number : Nat) {text : List Char}
    (htext : '\n' ∉ text) : '\n' ∉ lineRow marked number text := by
  have hnumber := lineFeed_notMem_lineNumber number
  cases marked <;> simp [lineRow, rule, hnumber, htext]

theorem lineFeed_notMem_caretRow (column : Int) : '\n' ∉ caretRow column := by
  simp [caretRow, rule]

variable {lines : List (List Char)} (hlines : ∀ text ∈ lines, '\n' ∉ text)
include hlines

theorem lineFeed_notMem_rows {line column context : Int} :
    ∀ row ∈ rows lines line column context, '\n' ∉ row := by
  intro row hrow
  obtain ⟨⟨text, number⟩, hentry, hrow⟩ := List.mem_flatMap.mp hrow
  have htext : '\n' ∉ text := by
    have hmem := List.fst_mem_of_mem_zipIdx hentry
    exact hlines text (List.mem_of_mem_drop (List.mem_of_mem_take hmem))
  have hmarked := lineFeed_notMem_lineRow true number htext
  have hplain := lineFeed_notMem_lineRow false number htext
  have hcaret := lineFeed_notMem_caretRow column
  dsimp only at hrow
  split at hrow
  · rcases List.mem_cons.mp hrow with rfl | hrow
    · exact hmarked
    · exact List.mem_singleton.mp hrow ▸ hcaret
  · exact List.mem_singleton.mp hrow ▸ hplain

/-- The rows are read off the text. -/
theorem splitOn_write {line column context : Int} (hrows : rows lines line column context ≠ []) :
    (write lines line column context).toList.splitOn '\n' = rows lines line column context := by
  rw [write, String.toList_ofList,
    List.splitOn_intercalate '\n' (lineFeed_notMem_rows hlines) hrows]

end LineFeeds

theorem getElem?_concat_iff {α : Type} {front : List α} {last : α} (hfront : last ∉ front)
    (offset : Nat) : (front ++ [last])[offset]? = some last ↔ offset = front.length := by
  constructor
  · intro hlast
    rcases Nat.lt_trichotomy offset front.length with hlt | heq | hgt
    · rw [List.getElem?_append_left hlt] at hlast
      exact absurd (List.mem_of_getElem? hlast) hfront
    · exact heq
    · rw [List.getElem?_eq_none (by rw [List.length_append]; exact hgt)] at hlast
      contradiction
  · rintro rfl
    rw [List.getElem?_append_right (Nat.le_refl _), Nat.sub_self]
    rfl

/-- The caret stands behind nine columns and those in front of its own. -/
theorem getElem?_caretRow_iff {column : Nat} (hcolumn : 1 ≤ column) (offset : Nat) :
    (caretRow column)[offset]? = some '^' ↔ offset = column + 8 := by
  have hblank : '^' ∉ List.replicate 6 ' ' ++ rule ++
      List.replicate ((column : Int) - 1).toNat ' ' := by
    simp [rule]
  have hlength : (List.replicate 6 ' ' ++ rule ++
      List.replicate ((column : Int) - 1).toNat ' ').length = column + 8 := by
    simp [rule]
    omega
  rw [caretRow, getElem?_concat_iff hblank, hlength]

/-- A drawing has one marked row. It ends in a line and shows the character in a column of the
line at the offset `shown`. The row below it has one caret, at the offset `drawn`. -/
def Points (drawing : String) (line : List Char) (column : Nat) (char : Char)
    (shown drawn : Nat) : Prop :=
  ∃ before label caret after,
    drawing.toList.splitOn '\n' = before ++ (label ++ line) :: caret :: after ∧
      label.head? = some '>' ∧ (∀ row ∈ before ++ caret :: after, row.head? ≠ some '>') ∧
        shown + 1 = label.length + column ∧ (label ++ line)[shown]? = some char ∧
          ∀ offset, caret[offset]? = some '^' ↔ offset = drawn

theorem dropWhile_unmarked {before : List (List Char)} {marked : List Char}
    (hbefore : ∀ row ∈ before, row.head? ≠ some '>') (hmarked : marked.head? = some '>')
    (after : List (List Char)) :
    (before ++ marked :: after).dropWhile (fun row => row.head? ≠ some '>') = marked :: after := by
  rw [List.dropWhile_append_of_pos fun row hrow => decide_eq_true (hbefore row hrow),
    List.dropWhile_cons_of_neg (by simpa using hmarked)]

/-- The offsets are read off the marked row and the one below it. -/
theorem Points.unique {drawing : String} {line : List Char} {column : Nat} {char : Char}
    {shown drawn shown' drawn' : Nat} (hpoints : Points drawing line column char shown drawn)
    (hagain : Points drawing line column char shown' drawn') : shown = shown' ∧ drawn = drawn' := by
  obtain ⟨before, label, caret, after, hrows, hlabel, hother, hshown, -, hdrawn⟩ := hpoints
  obtain ⟨before', label', caret', after', hrows', hlabel', hother', hshown', -, hdrawn'⟩ := hagain
  have hmarked : (label ++ line).head? = some '>' := by rw [List.head?_append, hlabel]; rfl
  have hmarked' : (label' ++ line).head? = some '>' := by rw [List.head?_append, hlabel']; rfl
  have hdrop := dropWhile_unmarked
    (fun row hrow => hother row (List.mem_append_left _ hrow)) hmarked (caret :: after)
  have hdrop' := dropWhile_unmarked
    (fun row hrow => hother' row (List.mem_append_left _ hrow)) hmarked' (caret' :: after')
  rw [← hrows, hrows', hdrop'] at hdrop
  obtain ⟨hlines, hcarets⟩ := List.cons.inj hdrop
  have hlength := congrArg List.length (List.append_cancel_right hlines)
  refine ⟨by omega, (hdrawn' drawn).mp ?_⟩
  rw [(List.cons.inj hcarets).1]
  exact (hdrawn drawn).mpr rfl

/-- A list can be cut at any of its elements. -/
theorem exists_append_cons_of_getElem? {α : Type} {elements : List α} {index : Nat} {element : α}
    (helement : elements[index]? = some element) :
    ∃ front back, elements = front ++ element :: back ∧ front.length = index := by
  obtain ⟨hlt, rfl⟩ := List.getElem?_eq_some_iff.mp helement
  refine ⟨elements.take index, elements.drop (index + 1), ?_, ?_⟩
  · rw [← List.drop_eq_getElem_cons hlt, List.take_append_drop]
  · rw [List.length_take]
    exact Nat.min_eq_left (Nat.le_of_lt hlt)

section Pointing

variable {lines : List (List Char)} {line column : Nat} {text : List Char} {char : Char}

/-- Where an excerpt shows a character, and where it draws its caret. -/
theorem points_write (context : Nat) (hlines : ∀ text ∈ lines, '\n' ∉ text) (hline : 1 ≤ line)
    (htext : lines[line - 1]? = some text) (hcolumn : 1 ≤ column)
    (hchar : text[column - 1]? = some char) :
    Points (write lines line column context) text column char
      ((label line).length + column - 1) (column + 8) := by
  obtain ⟨front, back, rfl, hfront⟩ := exists_append_cons_of_getElem? htext
  obtain rfl : line = front.length + 1 := by omega
  have hrows := rows_eq front back text column context
  have hne := rows_ne_nil front back text column context
  refine ⟨_, label (front.length + 1), caretRow column, _, (splitOn_write hlines hne).trans hrows,
    rfl, ?_, ?_, ?_, getElem?_caretRow_iff hcolumn⟩
  · intro row hrow hmarked
    have hplain : row.head? = some ' ' := by
      rcases List.mem_append.mp hrow with hbefore | hafter
      · exact head?_of_mem_plainRows hbefore
      · rcases List.mem_cons.mp hafter with rfl | hafter
        · rfl
        · exact head?_of_mem_plainRows hafter
    rw [hplain] at hmarked
    exact absurd hmarked (by decide)
  · omega
  · have hoffset : (label (front.length + 1)).length + column - 1 =
        (label (front.length + 1)).length + (column - 1) := by omega
    rw [hoffset, List.getElem?_append_right (Nat.le_add_right _ _), Nat.add_sub_cancel_left, hchar]

/-- Whatever is drawn are the rows. -/
theorem eq_write_of_draw {host : Host} {line column context : Int} {drawing : String}
    (hdraw : draw host lines line column context = .ok drawing) :
    drawing = write lines line column context := by
  unfold draw at hdraw
  split at hdraw
  · split at hdraw
    · contradiction
    · split at hdraw
      · contradiction
      · exact (Except.ok.inj hdraw).symm
  · exact (Except.ok.inj hdraw).symm

/-- A caret is drawn in every column for which there is memory. -/
theorem draw_eq_ok {host : Host} {line context : Int} (hcolumn : 1 ≤ column)
    (hmemory : column ≤ host.memory) :
    draw host lines line column context = .ok (write lines line column context) := by
  have hfits : Word.fits ((column : Int) - 1) = true := by
    have hword := host.memory_le_greatest
    rw [Word.fits_iff, Word.least]
    omega
  have hlimit : ¬ ((host.memory : Int) < (column : Int) - 1) := by omega
  rw [draw, hfits, if_neg hlimit, Bool.not_true, if_neg Bool.false_ne_true, ite_self]

/-- The caret of an excerpt stands below the character in its column if and only if the number of
the line has four digits or fewer. The excerpt marks the line and no other, and its caret stands in
the row below, behind nine columns and those in front of its own. The character stands behind
the label of the line, which is wider than nine columns when the number is. -/
theorem caret_below_character_iff (host : Host) (context : Nat)
    (hlines : ∀ text ∈ lines, '\n' ∉ text) (hline : 1 ≤ line)
    (htext : lines[line - 1]? = some text) (hcolumn : 1 ≤ column)
    (hchar : text[column - 1]? = some char) :
    (column ≤ host.memory → ∃ drawing, draw host lines line column context = .ok drawing) ∧
      ∀ drawing, draw host lines line column context = .ok drawing →
        Points drawing text column char ((label line).length + column - 1) (column + 8) ∧
          ((∃ offset, Points drawing text column char offset offset) ↔ line < 10000) := by
  refine ⟨fun hmemory => ⟨_, draw_eq_ok hcolumn hmemory⟩, fun drawing hdraw => ?_⟩
  obtain rfl := eq_write_of_draw hdraw
  have hpoints := points_write context hlines hline htext hcolumn hchar
  refine ⟨hpoints, ?_⟩
  rw [← length_label_eq_iff]
  constructor
  · rintro ⟨offset, hbelow⟩
    obtain ⟨hshown, hdrawn⟩ := hpoints.unique hbelow
    omega
  · intro hlength
    have hsame : (label line).length + column - 1 = column + 8 := by omega
    rw [hsame] at hpoints
    exact ⟨_, hpoints⟩

end Pointing

/-- A closer behind an accented letter, in the second line of two. -/
theorem caret_below_character_of_second_line :
    draw .least [['+'], ['é', ']']] 2 2 2 = .ok "     1 | +\n>    2 | é]\n       |  ^" ∧
      Points "     1 | +\n>    2 | é]\n       |  ^" ['é', ']'] 2 ']' 10 10 := by
  have hdraw : draw .least [['+'], ['é', ']']] 2 2 2 =
      .ok "     1 | +\n>    2 | é]\n       |  ^" := by decide
  have hiff := @caret_below_character_iff [['+'], ['é', ']']] 2 2 ['é', ']'] ']' .least 2
    (by decide) (by decide) (by decide) (by decide) (by decide)
  exact ⟨hdraw, (hiff.2 _ hdraw).1⟩

/-- In line ten thousand the caret is one column to the left of the character. -/
theorem caret_left_of_character_in_line_ten_thousand :
    let lines := List.replicate 9999 [] ++ [[']']]
    (∀ text ∈ lines, '\n' ∉ text) ∧ lines[10000 - 1]? = some [']'] ∧
      ∃ drawing, draw .least lines 10000 1 2 = .ok drawing ∧ Points drawing [']'] 1 ']' 10 9 ∧
        ¬ ∃ offset, Points drawing [']'] 1 ']' offset offset := by
  intro lines
  have hlines : ∀ text ∈ lines, '\n' ∉ text := by
    intro text htext
    rcases List.mem_append.mp htext with hempty | hlast
    · rw [(List.mem_replicate.mp hempty).2]
      exact List.not_mem_nil
    · rw [List.mem_singleton.mp hlast]
      decide
  have htext : lines[10000 - 1]? = some [']'] := by
    rw [List.getElem?_append_right (by rw [List.length_replicate]), List.length_replicate]
    rfl
  have hpoints : Points (write lines 10000 1 2) [']'] 1 ']' 10 9 :=
    @points_write lines 10000 1 [']'] ']' 2 hlines (by decide) htext (by decide) (by decide)
  have hdraw : draw .least lines 10000 1 2 = .ok (write lines 10000 1 2) :=
    @draw_eq_ok lines 1 .least 10000 2 (by decide) (by decide)
  refine ⟨hlines, htext, _, hdraw, hpoints, ?_⟩
  rintro ⟨offset, hbelow⟩
  obtain ⟨hshown, hdrawn⟩ := hpoints.unique hbelow
  omega

end TapeMachine.Excerpt
