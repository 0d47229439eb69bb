/-
# What an excerpt tells

An excerpt can be read back, since every row is told from every other one: a line by its number,
which no caret has, and the marked line by its mark. What is read are the lines around the one that
was asked for, all of them and each once, and the caret below that one.

The caret is read as the number of blanks in front of it in its row. Whether it is seen below the
character in its column is another question, which depends on how wide the number of the line is.
-/

import TapeMachine.Proofs.Source.Excerpt
import TapeMachine.Source.Excerpt.Reading

namespace TapeMachine.Excerpt

/-- How a row is written. -/
def Row.write : Row → List Char
  | line marked number text => lineRow marked number text
  | caret blanks => caretRow (blanks + 1 : Nat)

section Reading

theorem readLine?_label (marked : Bool) (number : Nat) (text : List Char) :
    readLine? marked (Nat.toDigits 10 number ++ (rule ++ text)) =
      some (.line marked number text) := by
  have hdigits : ∀ char ∈ Nat.toDigits 10 number, char.isDigit = true :=
    fun _ => Column.isDigit_of_mem_toDigits
  have hbehind : (rule ++ text).dropWhile Char.isDigit = ' ' :: '|' :: ' ' :: text := rfl
  have hmore : (rule ++ text).takeWhile Char.isDigit = [] := rfl
  rw [readLine?, List.dropWhile_append_of_pos hdigits, List.takeWhile_append_of_pos hdigits,
    hbehind, hmore, List.append_nil]
  simp only [Nat.ofDigitChars_ten_toDigits]

/-- A number is not read as the label of a caret. -/
theorem readCaret?_label (number : Nat) (rest : List Char) :
    readCaret? (Nat.toDigits 10 number ++ rest) = none := by
  cases hdigits : Nat.toDigits 10 number with
  | nil => exact absurd hdigits Nat.toDigits_ne_nil
  | cons digit digits =>
      have hdigit : digit.isDigit = true :=
        Column.isDigit_of_mem_toDigits (hdigits ▸ List.mem_cons_self)
      rw [List.cons_append, readCaret?]
      intro text hlabel
      rw [(List.cons.inj hlabel).1] at hdigit
      contradiction

theorem readCaret?_blanks (blanks : Nat) :
    readCaret? ('|' :: ' ' :: (List.replicate blanks ' ' ++ ['^'])) = some (.caret blanks) := by
  have hblank : ∀ char ∈ List.replicate blanks ' ', decide (char = ' ') = true :=
    fun char hchar => decide_eq_true (List.eq_of_mem_replicate hchar)
  have hbehind : (List.replicate blanks ' ' ++ ['^']).dropWhile (· = ' ') = ['^'] :=
    List.dropWhile_append_of_pos hblank
  have hfront : (List.replicate blanks ' ' ++ ['^']).takeWhile (· = ' ') =
      List.replicate blanks ' ' := by
    rw [List.takeWhile_append_of_pos hblank]
    exact List.append_nil _
  rw [readCaret?, hbehind, if_pos rfl, hfront, List.length_replicate]

theorem readRow?_lineRow (marked : Bool) (number : Nat) (text : List Char) :
    readRow? (lineRow marked number text) = some (.line marked number text) := by
  have hlabel : (lineNumber number ++ rule ++ text).dropWhile (· = ' ') =
      Nat.toDigits 10 number ++ (rule ++ text) := by
    rw [List.append_assoc, lineNumber, Column.dropWhile_leftpad_append]
  cases marked with
  | true =>
      have hrow : lineRow true number text =
          '>' :: ' ' :: (lineNumber number ++ rule ++ text) := rfl
      rw [hrow, readRow?, hlabel, readLine?_label]
  | false =>
      have hrow : lineRow false number text =
          ' ' :: ' ' :: (lineNumber number ++ rule ++ text) := rfl
      -- Without a mark, the row is that of a caret unless its label is a number.
      rw [hrow, readRow?, hlabel, readCaret?_label, readLine?_label]
      rfl

theorem readRow?_caretRow (blanks : Nat) :
    readRow? (caretRow (blanks + 1 : Nat)) = some (.caret blanks) := by
  have hblanks : (((blanks + 1 : Nat) : Int) - 1).toNat = blanks := by omega
  have hlabel : (List.replicate 4 ' ' ++ rule ++ List.replicate blanks ' ' ++ ['^']).dropWhile
      (· = ' ') = '|' :: ' ' :: (List.replicate blanks ' ' ++ ['^']) := rfl
  have hrow : caretRow (blanks + 1 : Nat) =
      ' ' :: ' ' :: (List.replicate 4 ' ' ++ rule ++ List.replicate blanks ' ' ++ ['^']) := by
    rw [caretRow, hblanks]
    rfl
  rw [hrow, readRow?, hlabel, readCaret?_blanks]
  rfl

/-- Whatever is written in a row is read from it. -/
theorem readRow?_write (row : Row) : readRow? row.write = some row := by
  cases row with
  | line marked number text => exact readRow?_lineRow marked number text
  | caret blanks => exact readRow?_caretRow blanks

theorem mapM_readRow?_write (rows : List Row) : (rows.map Row.write).mapM readRow? = some rows := by
  have hread : readRow? ∘ Row.write = fun row => pure (id row) := funext readRow?_write
  rw [List.mapM_map, hread, List.mapM_pure, List.map_id]
  rfl

end Reading

/-- Rows show the lines of a text that are at most `context` away from one of them, in order, each
once and behind its number. Only that line is marked, and the only caret is directly below it,
behind as many blanks as there are columns in front of its own. -/
structure ShowsAround (lines : List (List Char)) (text : List Char) (line column context : Nat)
    (rows : List Row) : Prop where
  numbered : rows.filterMap Row.line? = (lines.zipIdx 1).filter fun (_, number) =>
    max 1 (line - context) ≤ number ∧ number ≤ min lines.length (line + context)
  marked : rows.filter Row.isMarked = [.line true line text]
  carets : rows.filter Row.isCaret = [.caret (column - 1)]
  below : [.line true line text, .caret (column - 1)] <:+: rows

section Numbers

variable {α : Type}

theorem filter_zipIdx_eq_nil {elements : List α} {start first last : Nat}
    (hout : start + elements.length ≤ first ∨ last < start) :
    (elements.zipIdx start).filter (fun (_, number) => first ≤ number ∧ number ≤ last) = [] := by
  refine List.filter_eq_nil_iff.mpr fun ⟨element, number⟩ hmem => ?_
  obtain ⟨hle, hlt, -⟩ := List.mem_zipIdx hmem
  simp only [decide_eq_true_eq]
  omega

theorem filter_zipIdx_eq_self {elements : List α} {start first last : Nat}
    (hfirst : first ≤ start) (hlast : start + elements.length ≤ last + 1) :
    (elements.zipIdx start).filter (fun (_, number) => first ≤ number ∧ number ≤ last) =
      elements.zipIdx start := by
  refine List.filter_eq_self.mpr fun ⟨element, number⟩ hmem => ?_
  obtain ⟨hle, hlt, -⟩ := List.mem_zipIdx hmem
  simp only [decide_eq_true_eq]
  omega

/-- The elements with the numbers of a part of a list are that part. -/
theorem filter_zipIdx_append (before shown after : List α) :
    ((before ++ shown ++ after).zipIdx 1).filter (fun (_, number) =>
        before.length + 1 ≤ number ∧ number ≤ before.length + shown.length) =
      shown.zipIdx (before.length + 1) := by
  have hbefore := @filter_zipIdx_eq_nil _ before 1 (before.length + 1)
    (before.length + shown.length) (by omega)
  have hshown := @filter_zipIdx_eq_self _ shown (1 + before.length) (before.length + 1)
    (before.length + shown.length) (by omega) (by omega)
  have hafter := @filter_zipIdx_eq_nil _ after (1 + (before ++ shown).length) (before.length + 1)
    (before.length + shown.length) (by rw [List.length_append]; omega)
  rw [List.zipIdx_append, List.zipIdx_append, List.filter_append, List.filter_append, hbefore,
    hshown, hafter, List.nil_append, List.append_nil, Nat.add_comm]

end Numbers

/-- What the rows of lines say that are not marked and are numbered from `first` on. -/
def plain (first : Nat) (lines : List (List Char)) : List Row :=
  (lines.zipIdx first).map fun (text, number) => .line false number text

theorem filterMap_line?_plain (first : Nat) (lines : List (List Char)) :
    (plain first lines).filterMap Row.line? = lines.zipIdx first := by
  rw [plain, List.filterMap_map]
  exact List.filterMap_some

theorem map_write_plain (first : Nat) (lines : List (List Char)) :
    (plain first lines).map Row.write = plainRows first lines := by
  rw [plain, List.map_map]
  rfl

/-- There is no mark and no caret among them. -/
theorem filter_plain {property : Row → Bool}
    (hline : ∀ number text, property (.line false number text) = false) (first : Nat)
    (lines : List (List Char)) : (plain first lines).filter property = [] := by
  refine List.filter_eq_nil_iff.mpr fun row hrow => ?_
  obtain ⟨⟨text, number⟩, -, rfl⟩ := List.mem_map.mp hrow
  rw [hline]
  exact Bool.false_ne_true

section Around

variable (front back : List (List Char)) (text : List Char) (column context : Nat)

/-- What an excerpt says of the line `text`, which stands behind `front` and in front of `back`. -/
def around : List Row :=
  plain (front.length - context + 1) (front.drop (front.length - context)) ++
    .line true (front.length + 1) text :: .caret (column - 1) ::
      plain (front.length + 2) (back.take context)

theorem filterMap_line?_around :
    (around front back text column context).filterMap Row.line? =
      (front.drop (front.length - context) ++ text :: back.take context).zipIdx
        (front.length - context + 1) := by
  have hnumber : front.length - context + 1 + (front.drop (front.length - context)).length =
      front.length + 1 := by
    rw [List.length_drop]
    omega
  have hline : (Row.line true (front.length + 1) text).line? = some (text, front.length + 1) := rfl
  have hcaret : (Row.caret (column - 1)).line? = none := rfl
  rw [around, List.filterMap_append, filterMap_line?_plain, List.filterMap_cons_some hline,
    List.filterMap_cons_none hcaret, filterMap_line?_plain, List.zipIdx_append, hnumber,
    List.zipIdx_cons]

theorem showsAround_around :
    ShowsAround (front ++ text :: back) text (front.length + 1) column context
      (around front back text column context) := by
  constructor
  case numbered =>
    -- The lines are cut into those in front of the ones that are shown, those, and the others.
    have hlines : front ++ text :: back = front.take (front.length - context) ++
        (front.drop (front.length - context) ++ text :: back.take context) ++
          back.drop context := by
      rw [List.append_assoc, List.append_assoc, List.cons_append, List.take_append_drop,
        ← List.append_assoc, List.take_append_drop]
    have hbefore : (front.take (front.length - context)).length = front.length - context := by
      rw [List.length_take]
      omega
    have hfilter := filter_zipIdx_append (front.take (front.length - context))
      (front.drop (front.length - context) ++ text :: back.take context) (back.drop context)
    rw [← hlines, hbefore] at hfilter
    have hfirst : max 1 (front.length + 1 - context) = front.length - context + 1 := by omega
    have hlast : min (front ++ text :: back).length (front.length + 1 + context) =
        front.length - context +
          (front.drop (front.length - context) ++ text :: back.take context).length := by
      simp only [List.length_append, List.length_cons, List.length_drop, List.length_take]
      omega
    rw [filterMap_line?_around, hfirst, hlast, hfilter]
  case marked =>
    have hplain := @filter_plain Row.isMarked fun _ _ => rfl
    rw [around, List.filter_append, hplain, List.filter_cons_of_pos rfl,
      List.filter_cons_of_neg Bool.false_ne_true, hplain]
    rfl
  case carets =>
    have hplain := @filter_plain Row.isCaret fun _ _ => rfl
    rw [around, List.filter_append, hplain, List.filter_cons_of_neg Bool.false_ne_true,
      List.filter_cons_of_pos rfl, hplain]
    rfl
  case below => exact ⟨_, _, (List.append_assoc _ _ _).trans rfl⟩

variable {column} (hcolumn : 1 ≤ column)
include hcolumn

/-- The rows of an excerpt are those that say so. -/
theorem rows_eq_map_write :
    rows (front ++ text :: back) (front.length + 1 : Nat) column context =
      (around front back text column context).map Row.write := by
  have hcaret : (Row.caret (column - 1)).write = caretRow column := by
    rw [Row.write, Nat.sub_add_cancel hcolumn]
  rw [rows_eq, around, List.map_append, map_write_plain, List.map_cons, List.map_cons, hcaret,
    map_write_plain]
  rfl

end Around

section Lines

variable {lines : List (List Char)} {line column : Nat} {text : List Char}

/-- An excerpt around a line of a text is read as the lines around it. -/
theorem exists_read?_write (context : Nat) (hlines : ∀ text ∈ lines, '\n' ∉ text) (hline : 1 ≤ line)
    (htext : lines[line - 1]? = some text) (hcolumn : 1 ≤ column) :
    ∃ rows, read? (write lines line column context) = some rows ∧
      ShowsAround lines text line column context rows := by
  obtain ⟨front, back, rfl, hfront⟩ := exists_append_cons_of_getElem? htext
  obtain rfl : line = front.length + 1 := by omega
  have hrows := rows_eq_map_write front back text context hcolumn
  have hne := rows_ne_nil front back text column context
  refine ⟨_, ?_, showsAround_around front back text column context⟩
  rw [read?, splitOn_write hlines hne, hrows, mapM_readRow?_write]

end Lines

end TapeMachine.Excerpt
