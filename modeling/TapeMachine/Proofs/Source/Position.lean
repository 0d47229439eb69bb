/-
# Places in a decoded source

The place behind a part of a source is counted in its bytes, and only the last line of that part is
decoded. Since line feeds are never inside a character, the same place is found in the decoded part:
as many lines as it has, and as many columns as characters stand behind its last line feed.

So a byte that is a character of its own is found again among the decoded lines of the whole
source, where its place says. The places of such bytes are all different, and they are in the order
of the bytes.
-/

import Mathlib.Data.List.DropRight
import TapeMachine.Proofs.Text.Decoding
import TapeMachine.Source.Position

namespace TapeMachine

open Utf8

namespace Index

/-- A cut at the position of an element keeps the elements in front of it. -/
theorem cut_of_resolve {size : Nat} {position : Int} {index : Fin size}
    (hresolve : resolve size position = some index) : cut size position = index := by
  unfold resolve at hresolve
  by_cases hfront : 0 ≤ position ∧ position < size
  · rw [dif_pos hfront] at hresolve
    obtain rfl := Option.some.inj hresolve
    rw [cut, if_pos hfront.1]
    exact Nat.min_eq_left (by omega)
  · rw [dif_neg hfront] at hresolve
    by_cases hback : -(size : Int) ≤ position ∧ position < 0
    · rw [dif_pos hback] at hresolve
      obtain rfl := Option.some.inj hresolve
      rw [cut, if_neg (by omega)]
    · rw [dif_neg hback] at hresolve
      contradiction

end Index

namespace Position

section LastLine

variable {α : Type} [DecidableEq α] {feed : α}

/-- A text is one line, or it can be cut at its last line feed. -/
theorem cut_at_last (feed : α) (text : List α) :
    feed ∉ text ∨ ∃ before line, text = before ++ feed :: line ∧ feed ∉ line := by
  by_cases hmem : feed ∈ text
  · obtain ⟨line, before, hreverse, hline⟩ :=
      List.eq_append_cons_of_mem (List.mem_reverse.mpr hmem)
    refine .inr ⟨before.reverse, line.reverse, ?_, ?_⟩
    · rw [← List.reverse_reverse text, hreverse, List.reverse_append, List.reverse_cons,
        List.append_assoc, List.singleton_append]
    · rwa [List.mem_reverse]
  · exact .inl hmem

theorem rtakeWhile_of_notMem {line : List α} (hline : feed ∉ line) :
    line.rtakeWhile (· ≠ feed) = line := by
  rw [List.rtakeWhile_eq_self_iff]
  exact fun element hmem => decide_eq_true fun heq => hline (heq ▸ hmem)

theorem takeWhile_append_cons {line : List α} (hline : feed ∉ line) (rest : List α) :
    (line ++ feed :: rest).takeWhile (· ≠ feed) = line := by
  have hall : ∀ element ∈ line, decide (element ≠ feed) = true := fun element hmem =>
    decide_eq_true fun heq => hline (heq ▸ hmem)
  rw [List.takeWhile_append_of_pos hall, List.takeWhile_cons_of_neg (by simp), List.append_nil]

theorem rtakeWhile_append_cons (before : List α) {line : List α} (hline : feed ∉ line) :
    (before ++ feed :: line).rtakeWhile (· ≠ feed) = line := by
  rw [List.rtakeWhile, List.reverse_append, List.reverse_cons, List.append_assoc,
    List.singleton_append, takeWhile_append_cons (List.mem_reverse.not.mpr hline),
    List.reverse_reverse]

end LastLine

/-- What stands behind the last line feed of a text. -/
def lastLineChars (chars : List Char) : List Char :=
  (chars.reverse.takeWhile (· ≠ '\n')).reverse

theorem lastLineChars_of_notMem {line : List Char} (hline : '\n' ∉ line) :
    lastLineChars line = line :=
  rtakeWhile_of_notMem hline

theorem lastLineChars_append_cons (before : List Char) {line : List Char} (hline : '\n' ∉ line) :
    lastLineChars (before ++ '\n' :: line) = line :=
  rtakeWhile_append_cons before hline

/-- Characters of the same line go behind the last line. -/
theorem lastLineChars_append_of_notMem (before : List Char) {more : List Char}
    (hmore : '\n' ∉ more) : lastLineChars (before ++ more) = lastLineChars before ++ more := by
  rcases cut_at_last '\n' before with hbefore | ⟨earlier, line, rfl, hline⟩
  · rw [lastLineChars_of_notMem hbefore, lastLineChars_of_notMem]
    exact List.not_mem_append hbefore hmore
  · rw [lastLineChars_append_cons _ hline, List.append_assoc, List.cons_append,
      lastLineChars_append_cons]
    exact List.not_mem_append hline hmore

theorem lineFeed_notMem_decode {line : List UInt8} (hline : lineFeed ∉ line) :
    '\n' ∉ decode line := by
  rw [← List.count_eq_zero, count_decode]
  exact List.count_eq_zero.mpr hline

/-- The last line is decoded to the last line. -/
theorem lastLineChars_decode (bytes : List UInt8) :
    lastLineChars (decode bytes) = decode (lastLine bytes) := by
  rcases cut_at_last lineFeed bytes with hbytes | ⟨before, line, rfl, hline⟩
  · have hlast : lastLine bytes = bytes := rtakeWhile_of_notMem hbytes
    rw [hlast, lastLineChars_of_notMem (lineFeed_notMem_decode hbytes)]
  · have hlast : lastLine (before ++ lineFeed :: line) = line := rtakeWhile_append_cons before hline
    have hdecode : decode (before ++ lineFeed :: line) = decode before ++ '\n' :: decode line :=
      decode_append_cons before (by decide) line
    rw [hlast, hdecode, lastLineChars_append_cons _ (lineFeed_notMem_decode hline)]

/-- The place behind a byte string, in its characters. -/
theorem after_eq (before : List UInt8) :
    after before =
      ⟨(decode before).count '\n' + 1, (lastLineChars (decode before)).length + 1⟩ := by
  rw [after, lastLineChars_decode, count_decode]
  rfl

end Position

section Lines

open Position

variable {α : Type} [DecidableEq α] (feed : α)

/-- What is true of a text of one line, and of a line in front of a text of which it is true, is
true of all texts. -/
theorem lineInduction {motive : List α → Prop} (last : ∀ line, feed ∉ line → motive line)
    (more : ∀ line rest, feed ∉ line → motive rest → motive (line ++ feed :: rest))
    (text : List α) : motive text := by
  by_cases hmem : feed ∈ text
  · obtain ⟨line, rest, rfl, hline⟩ := List.eq_append_cons_of_mem hmem
    exact more line rest hline (lineInduction last more rest)
  · exact last text hmem
termination_by text.length

theorem length_splitOn (text : List α) : (text.splitOn feed).length = text.count feed + 1 := by
  induction text using lineInduction feed with
  | last line hline =>
      rw [List.splitOn_eq_singleton hline, List.count_eq_zero.mpr hline]
      rfl
  | more line rest hline ih =>
      rw [List.splitOn_append_cons_self_of_not_mem hline, List.length_cons, ih, List.count_append,
        List.count_eq_zero.mpr hline, List.count_cons_self, Nat.zero_add]

variable {feed}

theorem notMem_of_mem_splitOn {text line : List α} (hmem : line ∈ text.splitOn feed) :
    feed ∉ line := by
  induction text using lineInduction feed with
  | last whole hwhole =>
      rw [List.splitOn_eq_singleton hwhole, List.mem_singleton] at hmem
      exact hmem ▸ hwhole
  | more first rest hfirst ih =>
      rw [List.splitOn_append_cons_self_of_not_mem hfirst, List.mem_cons] at hmem
      rcases hmem with rfl | hrest
      · exact hfirst
      · exact ih hrest

/-- The first line of a text goes on up to its first line feed. -/
theorem head?_splitOn_append {line : List α} (hline : feed ∉ line) (rest : List α) :
    ((line ++ rest).splitOn feed)[0]? = some (line ++ rest.takeWhile (· ≠ feed)) := by
  by_cases hrest : feed ∈ rest
  · obtain ⟨more, others, rfl, hmore⟩ := List.eq_append_cons_of_mem hrest
    rw [takeWhile_append_cons hmore, ← List.append_assoc,
      List.splitOn_append_cons_self_of_not_mem (List.not_mem_append hline hmore)]
    rfl
  · have hwhole : rest.takeWhile (· ≠ feed) = rest := by
      rw [List.takeWhile_eq_self_iff]
      exact fun element hmem => decide_eq_true fun heq => hrest (heq ▸ hmem)
    rw [hwhole, List.splitOn_eq_singleton (List.not_mem_append hline hrest)]
    rfl

/-- The line of a text in which a part of it ends. -/
theorem getElem?_splitOn_append (feed : α) (front back : List α) :
    ((front ++ back).splitOn feed)[front.count feed]? =
      some (front.rtakeWhile (· ≠ feed) ++ back.takeWhile (· ≠ feed)) := by
  rcases cut_at_last feed front with hfront | ⟨before, line, rfl, hline⟩
  · rw [List.count_eq_zero.mpr hfront, rtakeWhile_of_notMem hfront]
    exact head?_splitOn_append hfront back
  · have hcount : (before ++ feed :: line).count feed = (before.splitOn feed).length := by
      rw [length_splitOn, List.count_append, List.count_cons_self, List.count_eq_zero.mpr hline]
    rw [hcount, rtakeWhile_append_cons _ hline, List.append_assoc, List.cons_append,
      List.splitOn_append_cons_self, List.getElem?_append_right (Nat.le_refl _), Nat.sub_self]
    exact head?_splitOn_append hline back

end Lines

namespace Position

/-- The lines show a character at a place. Its line and its column count from one. -/
structure Shows (lines : List (List Char)) (place : Position) (char : Char) : Prop where
  line_pos : 1 ≤ place.line
  line_le : place.line ≤ lines.length
  column_pos : 1 ≤ place.column
  exists_text : ∃ text, lines[place.line - 1]? = some text ∧ place.column ≤ text.length ∧
    text[place.column - 1]? = some char

/-- A place comes before another one when a text is read. -/
def Before (first second : Position) : Prop :=
  first.line < second.line ∨ first.line = second.line ∧ first.column < second.column

theorem Before.ne {first second : Position} (hbefore : first.Before second) : first ≠ second := by
  rintro rfl
  unfold Before at hbefore
  omega

theorem Before.asymm {first second : Position} (hbefore : first.Before second) :
    ¬ second.Before first := by
  unfold Before at hbefore ⊢
  omega

/-- An ASCII byte that ends no line. -/
structure InLine (byte : UInt8) : Prop where
  ascii : byte < 0x80
  ends_no_line : byte ≠ lineFeed

variable {byte : UInt8} (hbyte : InLine byte)
include hbyte

theorem InLine.char_ne : Char.ofNat byte.toNat ≠ '\n' := fun hchar =>
  hbyte.ends_no_line (UInt8.toNat_inj.mp (eq_of_ofNat_eq_lineFeed hchar))

/-- A byte of a line is shown at the place behind what stands in front of it. -/
theorem InLine.shows_after (before rest : List UInt8) :
    (after before).Shows (sourceLines (before ++ byte :: rest)) (Char.ofNat byte.toNat) := by
  rw [sourceLines, decode_append_cons before hbyte.ascii, after_eq]
  have hline : ((decode before ++ Char.ofNat byte.toNat :: decode rest).splitOn '\n')[
      (decode before).count '\n']? = some (lastLineChars (decode before) ++
        (Char.ofNat byte.toNat :: decode rest).takeWhile (· ≠ '\n')) :=
    getElem?_splitOn_append '\n' _ _
  rw [List.takeWhile_cons_of_pos (by simpa using hbyte.char_ne)] at hline
  exact
    { line_pos := Nat.succ_pos _
      line_le := by
        rw [length_splitOn, List.count_append]
        exact Nat.succ_le_succ (Nat.le_add_right _ _)
      column_pos := Nat.succ_pos _
      exists_text := by
        refine ⟨_, hline, ?_, ?_⟩
        · rw [List.length_append, List.length_cons]
          exact Nat.add_le_add_left (Nat.succ_pos _) _
        · rw [Nat.add_sub_cancel, List.getElem?_append_right (Nat.le_refl _), Nat.sub_self]
          rfl }

/-- What is behind a byte of a line is at a later place. -/
theorem InLine.before_after (before more : List UInt8) :
    (after before).Before (after (before ++ byte :: more)) := by
  rw [after_eq, after_eq, decode_append_cons before hbyte.ascii]
  by_cases hfeed : '\n' ∈ Char.ofNat byte.toNat :: decode more
  · left
    rw [List.count_append]
    exact Nat.succ_lt_succ (Nat.lt_add_of_pos_right (List.count_pos_iff.mpr hfeed))
  · right
    rw [List.count_append, List.count_eq_zero.mpr hfeed, lastLineChars_append_of_notMem _ hfeed,
      List.length_append, List.length_cons]
    exact ⟨rfl, Nat.succ_lt_succ (Nat.lt_add_of_pos_right (Nat.succ_pos _))⟩

end Position

section Source

open Position

variable {source : List UInt8}

theorem take_append_get_cons_drop (index : Fin source.length) :
    source.take index ++ source.get index :: source.drop (index + 1) = source := by
  rw [List.get_eq_getElem, ← List.drop_eq_getElem_cons index.isLt, List.take_append_drop]

/-- The place of a byte is the place behind what stands in front of it. -/
theorem Position.of_eq_after {position : Int} {index : Fin source.length}
    (hresolve : Index.resolve source.length position = some index) :
    of source position = after (source.take index) := by
  rw [of, Index.cut_of_resolve hresolve]

theorem Position.of_fin (index : Fin source.length) :
    of source (index : Nat) = after (source.take index) :=
  of_eq_after (Index.resolve_ofNat index.isLt)

/-- A byte of a line is shown at its place. -/
theorem Position.InLine.shows_of {position : Int} {index : Fin source.length}
    (hresolve : Index.resolve source.length position = some index)
    (hbyte : InLine (source.get index)) :
    (of source position).Shows (sourceLines source) (Char.ofNat (source.get index).toNat) := by
  have hshows := hbyte.shows_after (source.take index) (source.drop (index + 1))
  rwa [take_append_get_cons_drop, ← of_eq_after hresolve] at hshows

/-- A byte of a line comes before every byte behind it. -/
theorem Position.InLine.of_before_of {first second : Fin source.length}
    (hbyte : InLine (source.get first)) (hlt : first < second) :
    (of source (first : Nat)).Before (of source (second : Nat)) := by
  have hsplit : source.take second = source.take first ++ source.get first ::
      (source.take second).drop (first + 1) := by
    have hlength : (first : Nat) < (source.take second).length := by
      rw [List.length_take]
      exact Nat.lt_min.mpr ⟨hlt, first.isLt⟩
    have hcut := take_append_get_cons_drop ⟨first, hlength⟩
    have hget : (source.take second).get ⟨first, hlength⟩ = source.get first := List.getElem_take
    rw [List.take_take, Nat.min_eq_left (Nat.le_of_lt hlt), hget] at hcut
    exact hcut.symm
  rw [of_fin, of_fin, hsplit]
  exact hbyte.before_after _ _

end Source

end TapeMachine
