/-
# Programs written as texts

A text is loaded by its bytes, and what is told of it is told in characters. Its instructions are
the same either way, since the characters that write them are ASCII, and so are the brackets and
the line feeds. So a text loads if and only if its brackets are balanced as characters, and a report
on one of them names the line and the column of that character and shows the lines of the text.
-/

import TapeMachine.Proofs.Program.Loaded
import TapeMachine.Proofs.Source.Excerpt.Reading
import TapeMachine.Proofs.Source.Position
import TapeMachine.Proofs.Text.Utf8

namespace TapeMachine

open Utf8

namespace Instruction

/-- The instruction that a character writes. -/
def ofChar? : Char → Option Instruction
  | '>' => some right
  | '<' => some left
  | '+' => some increment
  | '-' => some decrement
  | '.' => some output
  | ',' => some input
  | '[' => some loopStart
  | ']' => some loopEnd
  | _ => none

theorem ofByte?_ofNat : ∀ value < 0x80,
    ofByte? (UInt8.ofNat value) = ofChar? (Char.ofNat value) := by
  decide

theorem ofChar?_of_wide {char : Char} (hwide : 0x80 ≤ char.toNat) : ofChar? char = none := by
  unfold ofChar?
  split <;> first | rfl | exact absurd hwide (by decide)

theorem ofByte?_of_wide {byte : UInt8} (hwide : 0x80 ≤ byte) : ofByte? byte = none := by
  cases hbyte : ofByte? byte with
  | none => rfl
  | some instruction =>
      obtain rfl := byte_of_ofByte? hbyte
      cases instruction <;> exact absurd hwide (by decide)

theorem filterMap_encode (char : Char) :
    (encode (.ofChar char)).filterMap ofByte? = (ofChar? char).toList := by
  rcases Nat.lt_or_ge char.toNat 0x80 with hascii | hwide
  · have hinstruction := ofByte?_ofNat char.toNat hascii
    rw [Char.ofNat_toNat] at hinstruction
    rw [encode_of_ascii hascii, ← hinstruction]
    cases hbyte : ofByte? (UInt8.ofNat char.toNat) <;> simp [hbyte]
  · rw [ofChar?_of_wide hwide, Option.toList_none, List.filterMap_eq_nil_iff]
    exact fun byte hbyte => ofByte?_of_wide (le_of_mem_encode hwide hbyte)

/-- The bytes of a text hold its instructions, and no others. -/
theorem filterMap_encodeChars (chars : List Char) :
    (encodeChars chars).filterMap ofByte? = chars.filterMap ofChar? := by
  rw [encodeChars, List.filterMap_flatMap, List.filterMap_eq_flatMap_toList]
  congr 1
  funext char
  exact filterMap_encode char

end Instruction

namespace Position

/-- The place behind a part of a text, in characters. -/
theorem after_encodeChars (chars : List Char) :
    after (encodeChars chars) = ⟨chars.count '\n' + 1, (lastLineChars chars).length + 1⟩ := by
  rw [after_eq, decode_encodeChars]

/-- The line of a text in which a character stands. A line feed stands in the line that it ends. -/
def lineCharsAt (chars : List Char) (index : Nat) : List Char :=
  lastLineChars (chars.take index) ++ (chars.drop index).takeWhile (· ≠ '\n')

end Position

/-- The lines of an encoded text are the lines of the text. -/
theorem sourceLines_encodeChars (chars : List Char) :
    sourceLines (encodeChars chars) = chars.splitOn '\n' := by
  rw [sourceLines, decode_encodeChars]

namespace BracketReport

/-- The report on a character of a text. -/
theorem make_encodeChars (before after : List Char) (char : Char) (byte : UInt8) :
    make (encodeChars (before ++ char :: after)) (encodeChars before).length byte =
      { position := (encodeChars before).length
        bracket := Char.ofNat byte.toNat
        line := before.count '\n' + 1
        column := (Position.lastLineChars before).length + 1
        context := Excerpt.write ((before ++ char :: after).splitOn '\n')
          (before.count '\n' + 1 : Nat) ((Position.lastLineChars before).length + 1 : Nat)
          contextLines } := by
  have hplace : Position.of (encodeChars (before ++ char :: after)) (encodeChars before).length =
      Position.after (encodeChars before) := by
    rw [Position.of, Index.cut_ofNat, encodeChars_append, List.length_append,
      Nat.min_eq_left (Nat.le_add_right _ _), List.take_left]
  rw [make, hplace, Position.after_encodeChars, sourceLines_encodeChars]

/-- Its excerpt is read as the lines of the text around that character. -/
theorem exists_read?_make_encodeChars (before after : List Char) (char : Char) (byte : UInt8) :
    ∃ rows,
      Excerpt.read? (make (encodeChars (before ++ char :: after))
        (encodeChars before).length byte).context = some rows ∧
        Excerpt.ShowsAround ((before ++ char :: after).splitOn '\n')
          (Position.lineCharsAt (before ++ char :: after) before.length)
          (before.count '\n' + 1) ((Position.lastLineChars before).length + 1) 2 rows := by
  have hline := getElem?_splitOn_append '\n' before (char :: after)
  rw [make_encodeChars, Position.lineCharsAt, List.take_left, List.drop_left]
  exact Excerpt.exists_read?_write 2 (fun _ => notMem_of_mem_splitOn) (Nat.succ_pos _) hline
    (Nat.succ_pos _)

end BracketReport

/-- The brackets of a text are balanced: no beginning of it closes more loops than it opens, and
the whole text closes as many. -/
structure BracketsBalanced (chars : List Char) : Prop where
  not_overdrawn : ∀ length, (chars.take length).count ']' ≤ (chars.take length).count '['
  closed : chars.count '[' = chars.count ']'

/-- The character at an index is the bracket that keeps the brackets of a text from being
balanced. -/
inductive UnmatchedChar (chars : List Char) (index : Nat) : Char → Prop
  /-- A closer behind balanced brackets. -/
  | stray (hcloser : chars[index]? = some ']') (hbefore : BracketsBalanced (chars.take index)) :
      UnmatchedChar chars index ']'
  /-- The last opener without a closer, when no closer lacks an opener. -/
  | unclosed (hopener : chars[index]? = some '[')
      (hnone : ∀ length, (chars.take length).count ']' ≤ (chars.take length).count '[')
      (hbehind : BracketsBalanced (chars.drop (index + 1))) : UnmatchedChar chars index '['

theorem UnmatchedChar.getElem?_eq {chars : List Char} {index : Nat} {bracket : Char}
    (hunmatched : UnmatchedChar chars index bracket) : chars[index]? = some bracket := by
  cases hunmatched with
  | stray hcloser => exact hcloser
  | unclosed hopener => exact hopener

open Depth

theorem depth_encodeChars (chars : List Char) :
    depth (encodeChars chars) = (chars.count '[' : Int) - chars.count ']' := by
  have hopeners : (encodeChars chars).count Instruction.loopStart.byte = chars.count '[' :=
    @count_encodeChars '[' (by decide) chars
  have hclosers : (encodeChars chars).count Instruction.loopEnd.byte = chars.count ']' :=
    @count_encodeChars ']' (by decide) chars
  rw [depth_eq_count_sub_count, hopeners, hclosers]

/-- If the depth of the bytes is nowhere negative, no beginning of the text is overdrawn. -/
theorem not_overdrawn_of_encodeChars {chars : List Char}
    (hdepth : ∀ length, 0 ≤ depth ((encodeChars chars).take length)) (length : Nat) :
    (chars.take length).count ']' ≤ (chars.take length).count '[' := by
  have hcut := hdepth (encodeChars (chars.take length)).length
  have hsplit : encodeChars chars =
      encodeChars (chars.take length) ++ encodeChars (chars.drop length) := by
    rw [← encodeChars_append, List.take_append_drop]
  rw [hsplit, List.take_left, depth_encodeChars] at hcut
  omega

theorem Balanced.bracketsBalanced {chars : List Char} (hcode : Balanced (encodeChars chars)) :
    BracketsBalanced chars where
  not_overdrawn := not_overdrawn_of_encodeChars hcode.depth_take_nonneg
  closed := by
    have hdepth := hcode.depth_eq_zero
    rw [depth_encodeChars] at hdepth
    omega

/-- The bracket that cannot be paired among the bytes is a character of the text. -/
theorem exists_unmatched_of_unpaired {chars : List Char} {unmatched : UnmatchedBracket}
    (hunpaired : Brackets.Unpaired (encodeChars chars) unmatched) :
    ∃ before after, chars = before ++ Char.ofNat unmatched.bracket.byte.toNat :: after ∧
      unmatched.position = (encodeChars before).length ∧
      UnmatchedChar chars before.length (Char.ofNat unmatched.bracket.byte.toNat) := by
  generalize hcode : encodeChars chars = code at hunpaired
  cases hunpaired with
  | stray hstem =>
      obtain ⟨before, after, rfl, rfl, -⟩ := exists_of_encodeChars_eq (by decide) hcode
      refine ⟨before, after, rfl, rfl, .stray ?_ ?_⟩
      · rw [List.getElem?_append_right (Nat.le_refl _), Nat.sub_self]
        rfl
      · rw [List.take_left]
        exact hstem.bracketsBalanced
  | unclosed hstem hbody =>
      have hwaiting := Brackets.Waiting.opener hstem hbody
      rw [← hcode] at hwaiting
      obtain ⟨before, after, rfl, rfl, rfl⟩ := exists_of_encodeChars_eq (by decide) hcode
      refine ⟨before, after, rfl, rfl, .unclosed ?_ ?_ ?_⟩
      · rw [List.getElem?_append_right (Nat.le_refl _), Nat.sub_self]
        rfl
      · exact not_overdrawn_of_encodeChars hwaiting.depth_take_nonneg
      · rw [List.drop_length_add_append, List.drop_succ_cons, List.drop_zero]
        exact hbody.bracketsBalanced

/-- A text with such a bracket is not balanced. -/
theorem UnmatchedChar.not_balanced {chars : List Char} {index : Nat} {bracket : Char}
    (hunmatched : UnmatchedChar chars index bracket) : ¬ BracketsBalanced chars := by
  intro hbalanced
  cases hunmatched with
  | stray hcloser hbefore =>
      have hcut := hbalanced.not_overdrawn (index + 1)
      have hclosed := hbefore.closed
      rw [List.take_add_one, hcloser] at hcut
      simp at hcut
      omega
  | unclosed hopener hnone hbehind =>
      have hsplit : chars = chars.take index ++ '[' :: chars.drop (index + 1) := by
        obtain ⟨hlt, hget⟩ := List.getElem?_eq_some_iff.mp hopener
        rw [← hget, ← List.drop_eq_getElem_cons hlt, List.take_append_drop]
      have hclosed := hbalanced.closed
      have hbefore := hnone index
      have hafter := hbehind.closed
      rw [hsplit] at hclosed
      simp at hclosed
      omega

theorem balanced_encodeChars_iff {chars : List Char} :
    Balanced (encodeChars chars) ↔ BracketsBalanced chars := by
  refine ⟨Balanced.bracketsBalanced, fun hbalanced => ?_⟩
  have hspec := Brackets.pair_spec (encodeChars chars)
  cases hpair : Brackets.pair (encodeChars chars) with
  | ok partners =>
      rw [hpair] at hspec
      exact hspec.1
  | error unmatched =>
      rw [hpair] at hspec
      obtain ⟨_, _, -, -, hunmatched⟩ := exists_unmatched_of_unpaired hspec
      exact absurd hbalanced hunmatched.not_balanced

/-- A text without surrogates is encoded character by character. -/
theorem encode_text {text : Text} (hplain : ∀ point ∈ text, point.isSurrogate = false) :
    (Source.text text).encode .utf8 = .ok (encodeChars text.chars) := by
  have hnone : Encoding.utf8.offence? text = none := by
    have hdrop : text.dropWhile (!Encoding.utf8.refuses ·) = [] := by
      rw [List.dropWhile_eq_nil_iff]
      intro point hpoint
      simp only [Encoding.refuses, hplain point hpoint, Bool.not_false]
    rw [Encoding.offence?, hdrop]
  have hbytes : text.flatMap Encoding.utf8.bytes = encodeChars text.chars := by
    rw [encodeChars, Text.chars, List.flatMap_map]
    refine List.flatMap_congr fun point hpoint => ?_
    rw [CodePoint.ofChar_char (hplain point hpoint)]
    rfl
  simp only [Source.encode, Encoding.encode, hnone, hbytes]
  rfl

/-- Loading a text that cannot be loaded reports its unmatched bracket, in characters. -/
theorem load_text_eq_error {text : Text} (hplain : ∀ point ∈ text, point.isSurrogate = false)
    {error : LoadError} (hload : Program.load (.text text) .utf8 = .error error) :
    ∃ (before after : List Char) (bracket : Instruction),
      text.chars = before ++ Char.ofNat bracket.byte.toNat :: after ∧
        UnmatchedChar text.chars before.length (Char.ofNat bracket.byte.toNat) ∧
        error = .brackets (BracketReport.make (encodeChars text.chars)
          (encodeChars before).length bracket.byte) := by
  have hspec := Brackets.table_spec (encodeChars text.chars)
  rw [Program.load, encode_text hplain] at hload
  cases htable : Brackets.table (encodeChars text.chars) with
  | ok jumps =>
      simp only [Program.ofBytes, htable] at hload
      contradiction
  | error report =>
      rw [htable] at hspec
      simp only [Program.ofBytes, htable] at hload
      obtain rfl := Except.error.inj hload
      obtain ⟨unmatched, hunpaired, rfl⟩ := hspec
      obtain ⟨before, after, hchars, hposition, hunmatched⟩ :=
        exists_unmatched_of_unpaired hunpaired
      exact ⟨before, after, unmatched.bracket, hchars, hunmatched, by rw [hposition]⟩

/-- A text is loaded as it reads in characters. The instructions of its bytes are those that its
characters write, and it loads if and only if its brackets are balanced. Otherwise the report is on
the character that is the unmatched bracket. Its position is the number of bytes in front of it, its
line and its column are counted in characters, and its excerpt shows the lines of the text that are
at most two away from the line of that character, with a mark on that line and a caret below it. -/
theorem load_text_reads_and_reports_characters {text : Text}
    (hplain : ∀ point ∈ text, point.isSurrogate = false) :
    (∃ code, (Source.text text).encode .utf8 = .ok code ∧
        code.filterMap Instruction.ofByte? = text.chars.filterMap Instruction.ofChar? ∧
        ∀ program, Program.load (.text text) .utf8 = .ok program →
          program.code.toList = code) ∧
      ((∃ program, Program.load (.text text) .utf8 = .ok program) ↔
        BracketsBalanced text.chars) ∧
      ∀ error, Program.load (.text text) .utf8 = .error error →
        ∃ (report : BracketReport) (index : Nat),
          error = .brackets report ∧ UnmatchedChar text.chars index report.bracket ∧
            report.position = ((text.chars.take index).map Char.utf8Size).sum ∧
            report.line = (text.chars.take index).count '\n' + 1 ∧
            report.column = (Position.lastLineChars (text.chars.take index)).length + 1 ∧
            report.context = Excerpt.write (text.chars.splitOn '\n') report.line report.column
              BracketReport.contextLines ∧
            ∃ rows, Excerpt.read? report.context = some rows ∧
              Excerpt.ShowsAround (text.chars.splitOn '\n')
                (Position.lineCharsAt text.chars index) report.line report.column 2 rows := by
  refine ⟨⟨_, encode_text hplain, Instruction.filterMap_encodeChars _, ?_⟩, ?_, ?_⟩
  · intro program hload
    have hcode := (Program.loaded_of_load hload).2
    exact Except.ok.inj (hcode.symm.trans (encode_text hplain))
  · rw [Program.exists_load_iff (encode_text hplain), balanced_encodeChars_iff]
  · intro error hload
    obtain ⟨before, after, bracket, hchars, hunmatched, rfl⟩ := load_text_eq_error hplain hload
    refine ⟨_, before.length, rfl, ?_⟩
    rw [hchars] at hunmatched ⊢
    have hshown := BracketReport.exists_read?_make_encodeChars before after
      (Char.ofNat bracket.byte.toNat) bracket.byte
    rw [BracketReport.make_encodeChars] at hshown ⊢
    rw [List.take_left, ← length_encodeChars]
    exact ⟨hunmatched, rfl, rfl, rfl, rfl, hshown⟩

/-- A stray closer behind an accented letter, in the second line. It is the sixth character, and
there are seven bytes in front of it. -/
theorem load_text_reads_and_reports_characters_of_accents :
    (∀ point ∈ ['[', 'é', ']', '\n', 'ü', ']'].map CodePoint.ofChar,
        point.isSurrogate = false) ∧
      ∃ (report : BracketReport) (rows : List Excerpt.Row),
        Program.load (.text (['[', 'é', ']', '\n', 'ü', ']'].map CodePoint.ofChar)) .utf8 =
            .error (.brackets report) ∧
          (report.position = 7 ∧ report.line = 2 ∧ report.column = 2) ∧
          UnmatchedChar ['[', 'é', ']', '\n', 'ü', ']'] 5 report.bracket ∧
          report.position = ((['[', 'é', ']', '\n', 'ü', ']'].take 5).map Char.utf8Size).sum ∧
          report.context = "     1 | [é]\n>    2 | ü]\n       |  ^" ∧
          Excerpt.read? report.context = some rows ∧
          Excerpt.ShowsAround [['[', 'é', ']'], ['ü', ']']] ['ü', ']'] 2 2 2 rows := by
  have hplain : ∀ point ∈ ['[', 'é', ']', '\n', 'ü', ']'].map CodePoint.ofChar,
      point.isSurrogate = false := by decide
  have hload : Program.load (.text (['[', 'é', ']', '\n', 'ü', ']'].map CodePoint.ofChar)) .utf8 =
      .error (.brackets ⟨7, ']', 2, 2, "     1 | [é]\n>    2 | ü]\n       |  ^"⟩) := by
    decide +kernel
  obtain ⟨report, index, hreport, hunmatched, hposition, -, -, -, rows, hread, hrows⟩ :=
    (load_text_reads_and_reports_characters hplain).2.2 _ hload
  obtain rfl := LoadError.brackets.inj hreport
  have hlt : index < 6 := (List.getElem?_eq_some_iff.mp hunmatched.getElem?_eq).1
  obtain rfl : index = 5 := by
    have hbytes : ∀ index < 6,
        7 = ((['[', 'é', ']', '\n', 'ü', ']'].take index).map Char.utf8Size).sum → index = 5 := by
      decide
    exact hbytes index hlt (Int.ofNat_inj.mp hposition)
  exact ⟨hplain, _, rows, hload, ⟨rfl, rfl, rfl⟩, hunmatched, hposition, rfl, hread, hrows⟩

end TapeMachine
