/-
# Encoding and decoding characters

UTF-8 keeps the characters below 0x80 apart from all others: each of them is one byte, which is its
number, and no byte of any other character is below 0x80. So where such a byte stands in an encoded
text, a character of the text stands, and the text can be cut there.

Decoding gives back the characters that have been encoded. The decoder is between two characters
behind each of them, so this is so for any part of a text that begins and ends between characters.
-/

import Mathlib.Algebra.GroupWithZero.Nat
import TapeMachine.Text.Utf8

namespace TapeMachine

namespace CodePoint

/-- The character of a code point, if it is no surrogate. -/
def char (point : CodePoint) : Char := Char.ofNat point.value

theorem ofChar_scalar (char : Char) :
    (ofChar char).value < 0xD800 ∨ 0xDFFF < (ofChar char).value := by
  have hplain := isSurrogate_ofChar char
  simp only [isSurrogate, Bool.and_eq_false_imp, decide_eq_true_eq, decide_eq_false_iff_not]
    at hplain
  omega

theorem ofChar_char {point : CodePoint} (hplain : point.isSurrogate = false) :
    ofChar point.char = point := by
  obtain ⟨value, hlt⟩ := point
  have hvalid : value.isValidChar := by
    simp only [isSurrogate, Bool.and_eq_false_imp, decide_eq_true_eq, decide_eq_false_iff_not]
      at hplain
    unfold Nat.isValidChar
    omega
  simp only [ofChar, char, mk.injEq]
  rw [Char.ofNat, dif_pos hvalid]
  rfl

end CodePoint

namespace Text

/-- The characters of a text without surrogates. -/
def chars (text : Text) : List Char := text.map CodePoint.char

end Text

namespace Utf8

/-- The bytes of characters, one behind another. -/
def encodeChars (chars : List Char) : List UInt8 :=
  chars.flatMap fun char => encode (.ofChar char)

section Encode
variable {point : CodePoint}

theorem encode_one (hvalue : point.value < 0x80) : encode point = [UInt8.ofNat point.value] := by
  simp only [encode, hvalue, if_true]

theorem encode_two (hlow : 0x80 ≤ point.value) (hhigh : point.value < 0x800) :
    encode point =
      [UInt8.ofNat (0xC0 + point.value / 64), UInt8.ofNat (0x80 + point.value % 64)] := by
  simp only [encode, Nat.not_lt.mpr hlow, hhigh, if_true, if_false, Nat.div_one]

theorem encode_three (hlow : 0x800 ≤ point.value) (hhigh : point.value < 0x10000) :
    encode point =
      [UInt8.ofNat (0xE0 + point.value / 4096), UInt8.ofNat (0x80 + point.value / 64 % 64),
        UInt8.ofNat (0x80 + point.value % 64)] := by
  have hone : ¬ point.value < 0x80 := by omega
  simp only [encode, hone, Nat.not_lt.mpr hlow, hhigh, if_true, if_false, Nat.div_one]

theorem encode_four (hlow : 0x10000 ≤ point.value) :
    encode point =
      [UInt8.ofNat (0xF0 + point.value / 262144), UInt8.ofNat (0x80 + point.value / 4096 % 64),
        UInt8.ofNat (0x80 + point.value / 64 % 64), UInt8.ofNat (0x80 + point.value % 64)] := by
  have hone : ¬ point.value < 0x80 := by omega
  have htwo : ¬ point.value < 0x800 := by omega
  simp only [encode, hone, htwo, Nat.not_lt.mpr hlow, if_false, Nat.div_one]

end Encode

theorem feed_of_step {pending next : Pending} {byte : UInt8} {out : List Char}
    (hstep : step pending byte = (next, out)) (chars : Array Char) :
    Decoder.feed ⟨pending, chars⟩ byte = ⟨next, chars ++ out⟩ := by
  rw [Decoder.feed, hstep]

theorem step_ascii {value : Nat} (hvalue : value < 0x80) :
    step .nothing (UInt8.ofNat value) = (.nothing, [Char.ofNat value]) := by
  have hbyte : (UInt8.ofNat value).toNat = value := by
    rw [UInt8.toNat_ofNat']
    omega
  have hlt : UInt8.ofNat value < 0x80 := by
    rw [UInt8.lt_iff_toNat_lt, hbyte]
    exact hvalue
  rw [step, lead, if_pos hlt, hbyte]

theorem step_lead_two : ∀ bits < 32, 2 ≤ bits →
    step .nothing (UInt8.ofNat (0xC0 + bits)) = (.inside 0 0x80 0xBF bits, []) := by
  decide

theorem step_lead_three : ∀ bits < 16,
    step .nothing (UInt8.ofNat (0xE0 + bits)) =
      (.inside 1 (if bits = 0 then 0xA0 else 0x80) (if bits = 13 then 0x9F else 0xBF) bits,
        []) := by
  decide

theorem step_lead_four : ∀ bits < 5,
    step .nothing (UInt8.ofNat (0xF0 + bits)) =
      (.inside 2 (if bits = 0 then 0x90 else 0x80) (if bits = 4 then 0x8F else 0xBF) bits,
        []) := by
  decide

theorem step_tail {low high : UInt8} {tail : Nat} (later bits : Nat)
    (hlow : low.toNat ≤ 0x80 + tail) (hhigh : 0x80 + tail ≤ high.toNat) :
    step (.inside later low high bits) (UInt8.ofNat (0x80 + tail)) =
      match later with
      | 0 => (.nothing, [Char.ofNat (bits * 64 + tail)])
      | later + 1 => (.inside later 0x80 0xBF (bits * 64 + tail), []) := by
  have hbyte : (UInt8.ofNat (0x80 + tail)).toNat = 0x80 + tail := by
    have := high.toNat_lt
    rw [UInt8.toNat_ofNat']
    omega
  have hin : low ≤ UInt8.ofNat (0x80 + tail) ∧ UInt8.ofNat (0x80 + tail) ≤ high := by
    rw [UInt8.le_iff_toNat_le, UInt8.le_iff_toNat_le, hbyte]
    exact ⟨hlow, hhigh⟩
  have hbits : (UInt8.ofNat (0x80 + tail)).toNat - 0x80 = tail := by
    rw [hbyte, Nat.add_sub_cancel_left]
  cases later with
  | zero | succ later => simp only [step, hin, hbits, and_self, if_true]

/-- A byte behind the second one of a character may hold any six bits. -/
theorem step_free_tail {tail : Nat} (htail : tail < 64) (later bits : Nat) :
    step (.inside later 0x80 0xBF bits) (UInt8.ofNat (0x80 + tail)) =
      match later with
      | 0 => (.nothing, [Char.ofNat (bits * 64 + tail)])
      | later + 1 => (.inside later 0x80 0xBF (bits * 64 + tail), []) := by
  refine step_tail later bits (Nat.le_add_right _ _) ?_
  change 0x80 + tail ≤ 0xBF
  omega

section Bounds

variable {first edge second bound : Nat}

/-- Behind one value of the first byte the second has a larger lower bound. -/
theorem low_le {low : UInt8} (hlow : low.toNat = 0x80 + bound)
    (hbound : first = edge → bound ≤ second) :
    (if first = edge then low else 0x80 : UInt8).toNat ≤ 0x80 + second := by
  by_cases hedge : first = edge
  · rw [if_pos hedge, hlow]
    exact Nat.add_le_add_left (hbound hedge) 0x80
  · rw [if_neg hedge]
    exact Nat.le_add_right _ _

/-- Behind one value of the first byte the second has a smaller upper bound. -/
theorem le_high {high : UInt8} (hhigh : high.toNat + 1 = 0x80 + bound) (hsecond : second < 64)
    (hbound : first = edge → second < bound) :
    0x80 + second ≤ (if first = edge then high else 0xBF : UInt8).toNat := by
  by_cases hedge : first = edge
  · rw [if_pos hedge]
    have hlt := hbound hedge
    omega
  · rw [if_neg hedge]
    exact Nat.add_le_add_left (Nat.le_of_lt_succ hsecond) 0x80

end Bounds

section Feed

variable {first second third last : Nat} (chars : Array Char)

theorem foldl_feed_two (hfirst : 2 ≤ first ∧ first < 32) (hlast : last < 64) :
    [UInt8.ofNat (0xC0 + first), UInt8.ofNat (0x80 + last)].foldl Decoder.feed ⟨.nothing, chars⟩ =
      ⟨.nothing, chars.push (Char.ofNat (first * 64 + last))⟩ := by
  simp only [List.foldl_cons, List.foldl_nil,
    feed_of_step (step_lead_two first hfirst.2 hfirst.1), feed_of_step (step_free_tail hlast 0 _)]
  simp

theorem foldl_feed_three (hfirst : first < 16) (hsecond : second < 64)
    (hlong : first = 0 → 32 ≤ second) (hscalar : first = 13 → second < 32) (hlast : last < 64) :
    [UInt8.ofNat (0xE0 + first), UInt8.ofNat (0x80 + second), UInt8.ofNat (0x80 + last)].foldl
        Decoder.feed ⟨.nothing, chars⟩ =
      ⟨.nothing, chars.push (Char.ofNat ((first * 64 + second) * 64 + last))⟩ := by
  have hlow := low_le (rfl : (0xA0 : UInt8).toNat = 0x80 + 32) hlong
  have hhigh := le_high (rfl : (0x9F : UInt8).toNat + 1 = 0x80 + 32) hsecond hscalar
  simp only [List.foldl_cons, List.foldl_nil, feed_of_step (step_lead_three first hfirst),
    feed_of_step (step_tail 1 first hlow hhigh), feed_of_step (step_free_tail hlast 0 _)]
  simp

theorem foldl_feed_four (hfirst : first < 5) (hsecond : second < 64)
    (hlong : first = 0 → 16 ≤ second) (hbound : first = 4 → second < 16) (hthird : third < 64)
    (hlast : last < 64) :
    [UInt8.ofNat (0xF0 + first), UInt8.ofNat (0x80 + second), UInt8.ofNat (0x80 + third),
        UInt8.ofNat (0x80 + last)].foldl Decoder.feed ⟨.nothing, chars⟩ =
      ⟨.nothing, chars.push (Char.ofNat (((first * 64 + second) * 64 + third) * 64 + last))⟩ := by
  have hlow := low_le (rfl : (0x90 : UInt8).toNat = 0x80 + 16) hlong
  have hhigh := le_high (rfl : (0x8F : UInt8).toNat + 1 = 0x80 + 16) hsecond hbound
  simp only [List.foldl_cons, List.foldl_nil, feed_of_step (step_lead_four first hfirst),
    feed_of_step (step_tail 2 first hlow hhigh), feed_of_step (step_free_tail hthird 1 _),
    feed_of_step (step_free_tail hlast 0 _)]
  simp

end Feed

/-- The decoder is between two characters behind every character that it has read. -/
theorem foldl_feed_encode (char : Char) (chars : Array Char) :
    (encode (.ofChar char)).foldl Decoder.feed ⟨.nothing, chars⟩ =
      ⟨.nothing, chars.push char⟩ := by
  have hlt := (CodePoint.ofChar char).value_lt
  have hscalar := CodePoint.ofChar_scalar char
  have hchar : char = Char.ofNat (CodePoint.ofChar char).value := (Char.ofNat_toNat char).symm
  generalize CodePoint.ofChar char = point at hlt hscalar hchar
  rcases Nat.lt_or_ge point.value 0x80 with hone | hmany
  · rw [encode_one hone, List.foldl_cons, feed_of_step (step_ascii hone), hchar]
    simp
  · rcases Nat.lt_or_ge point.value 0x800 with htwo | hmore
    · rw [encode_two hmany htwo, foldl_feed_two chars (by omega) (by omega), hchar]
      congr 3
      omega
    · rcases Nat.lt_or_ge point.value 0x10000 with hthree | hfour
      · rw [encode_three hmore hthree, foldl_feed_three chars (by omega) (by omega) (by omega)
          (by omega) (by omega), hchar]
        congr 3
        omega
      · rw [encode_four hfour, foldl_feed_four chars (by omega) (by omega) (by omega)
          (by omega) (by omega) (by omega), hchar]
        congr 3
        omega

@[simp]
theorem encodeChars_nil : encodeChars [] = [] := rfl

@[simp]
theorem encodeChars_cons (char : Char) (chars : List Char) :
    encodeChars (char :: chars) = encode (.ofChar char) ++ encodeChars chars :=
  List.flatMap_cons

@[simp]
theorem encodeChars_append (first second : List Char) :
    encodeChars (first ++ second) = encodeChars first ++ encodeChars second :=
  List.flatMap_append

theorem foldl_feed_encodeChars (chars : List Char) (before : Array Char) :
    (encodeChars chars).foldl Decoder.feed ⟨.nothing, before⟩ = ⟨.nothing, before ++ chars⟩ := by
  induction chars generalizing before with
  | nil => simp
  | cons char chars ih =>
      rw [encodeChars_cons, List.foldl_append, foldl_feed_encode, ih]
      simp

/-- Decoding undoes encoding. -/
theorem decode_encodeChars (chars : List Char) : decode (encodeChars chars) = chars := by
  rw [decode, foldl_feed_encodeChars]
  simp [finish]

theorem length_encode (char : Char) : (encode (.ofChar char)).length = char.utf8Size := by
  have hvalue : (CodePoint.ofChar char).value = char.val.toNat := rfl
  have hbound (bound : Nat) (hfits : bound < 2 ^ 32) :
      char.val ≤ UInt32.ofNatLT bound hfits ↔ (CodePoint.ofChar char).value < bound + 1 := by
    rw [UInt32.le_iff_toNat_le, UInt32.toNat_ofNatLT, hvalue, Nat.lt_succ_iff]
  rw [encode, Char.utf8Size]
  simp only [hbound]
  split
  · rfl
  · split
    · rfl
    · split <;> rfl

/-- A text takes as many bytes as its characters take. -/
theorem length_encodeChars (chars : List Char) :
    (encodeChars chars).length = (chars.map Char.utf8Size).sum := by
  induction chars with
  | nil => rfl
  | cons char chars ih =>
      rw [encodeChars_cons, List.length_append, length_encode, ih, List.map_cons, List.sum_cons]

theorem encode_of_ascii {char : Char} (hascii : char.toNat < 0x80) :
    encode (.ofChar char) = [UInt8.ofNat char.toNat] :=
  encode_one hascii

/-- No byte of a character that is not ASCII is a byte of ASCII. -/
theorem le_of_mem_encode {char : Char} (hwide : 0x80 ≤ char.toNat) {byte : UInt8}
    (hbyte : byte ∈ encode (.ofChar char)) : 0x80 ≤ byte := by
  have hhigh : ∀ value, 0x80 ≤ value → value < 0x100 → 0x80 ≤ UInt8.ofNat value := by
    intro value hlow hlt
    rw [UInt8.le_iff_toNat_le, UInt8.toNat_ofNat', Nat.mod_eq_of_lt hlt]
    exact hlow
  have hlt := (CodePoint.ofChar char).value_lt
  change 0x80 ≤ (CodePoint.ofChar char).value at hwide
  generalize CodePoint.ofChar char = point at hbyte hwide hlt
  rcases Nat.lt_or_ge point.value 0x800 with htwo | hmore
  · rw [encode_two hwide htwo] at hbyte
    simp only [List.mem_cons, List.not_mem_nil, or_false] at hbyte
    rcases hbyte with rfl | rfl <;> exact hhigh _ (by omega) (by omega)
  · rcases Nat.lt_or_ge point.value 0x10000 with hthree | hfour
    · rw [encode_three hmore hthree] at hbyte
      simp only [List.mem_cons, List.not_mem_nil, or_false] at hbyte
      rcases hbyte with rfl | rfl | rfl <;> exact hhigh _ (by omega) (by omega)
    · rw [encode_four hfour] at hbyte
      simp only [List.mem_cons, List.not_mem_nil, or_false] at hbyte
      rcases hbyte with rfl | rfl | rfl | rfl <;> exact hhigh _ (by omega) (by omega)

/-- An ASCII byte of an encoded character is the character. -/
theorem eq_of_mem_encode {char : Char} {byte : UInt8} (hbyte : byte ∈ encode (.ofChar char))
    (hascii : byte < 0x80) :
    encode (.ofChar char) = [byte] ∧ char = Char.ofNat byte.toNat := by
  rcases Nat.lt_or_ge char.toNat 0x80 with hchar | hwide
  · rw [encode_of_ascii hchar] at hbyte ⊢
    obtain rfl := List.mem_singleton.mp hbyte
    rw [UInt8.toNat_ofNat', Nat.mod_eq_of_lt (Nat.lt_trans hchar (by decide)), Char.ofNat_toNat]
    exact ⟨rfl, rfl⟩
  · have hle := le_of_mem_encode hwide hbyte
    rw [UInt8.le_iff_toNat_le] at hle
    rw [UInt8.lt_iff_toNat_lt] at hascii
    exact absurd hascii (Nat.not_lt.mpr hle)

/-- Where an encoded text has an ASCII byte, the text has that character, and it is cut there into
what stands before and behind. -/
theorem exists_of_encodeChars_eq {chars : List Char} {stem rest : List UInt8} {byte : UInt8}
    (hascii : byte < 0x80) (hchars : encodeChars chars = stem ++ byte :: rest) :
    ∃ before after, chars = before ++ Char.ofNat byte.toNat :: after ∧
      encodeChars before = stem ∧ encodeChars after = rest := by
  induction chars generalizing stem with
  | nil => simp at hchars
  | cons char chars ih =>
      rw [encodeChars_cons] at hchars
      have hlater : ∀ more, stem = encode (.ofChar char) ++ more →
          encodeChars chars = more ++ byte :: rest → ∃ before after,
            char :: chars = before ++ Char.ofNat byte.toNat :: after ∧
              encodeChars before = stem ∧ encodeChars after = rest := by
        rintro more rfl hmore
        obtain ⟨before, after, rfl, rfl, hafter⟩ := ih hmore
        exact ⟨char :: before, after, rfl, encodeChars_cons char before, hafter⟩
      rcases List.append_eq_append_iff.mp hchars with ⟨more, hstem, hmore⟩ | ⟨more, hchar, hmore⟩
      · exact hlater more hstem hmore
      · cases more with
        | nil => exact hlater [] (by simpa using hchar.symm) (by simpa using hmore.symm)
        | cons head more =>
            -- The byte stands in the first character, which is then nothing but this byte.
            obtain ⟨rfl, hrest⟩ := List.cons.inj hmore
            have hmem : byte ∈ encode (.ofChar char) := by simp [hchar]
            obtain ⟨hone, rfl⟩ := eq_of_mem_encode hmem hascii
            rw [hone] at hchar
            obtain ⟨rfl, rfl⟩ : stem = [] ∧ more = [] := by
              have hlength := congrArg List.length hchar
              simp only [List.length_append, List.length_cons, List.length_nil] at hlength
              constructor <;> apply List.length_eq_zero_iff.mp <;> omega
            exact ⟨[], chars, rfl, rfl, hrest.symm⟩

/-- An ASCII character is as often in a text as its byte is in the encoded text. -/
theorem count_encodeChars {char : Char} (hascii : char.toNat < 0x80) (chars : List Char) :
    (encodeChars chars).count (UInt8.ofNat char.toNat) = chars.count char := by
  have hbyte : (UInt8.ofNat char.toNat).toNat = char.toNat := by
    rw [UInt8.toNat_ofNat', Nat.mod_eq_of_lt (Nat.lt_trans hascii (by decide))]
  induction chars with
  | nil => rfl
  | cons head chars ih =>
      rw [encodeChars_cons, List.count_append, ih, List.count_cons, Nat.add_comm]
      congr 1
      by_cases heq : head = char
      · subst heq
        rw [encode_of_ascii hascii]
        simp
      · have hother : UInt8.ofNat char.toNat ∉ encode (.ofChar head) := by
          intro hmem
          have hlt : UInt8.ofNat char.toNat < 0x80 := by
            rw [UInt8.lt_iff_toNat_lt, hbyte]
            exact hascii
          obtain ⟨-, hhead⟩ := eq_of_mem_encode hmem hlt
          rw [hbyte, Char.ofNat_toNat] at hhead
          exact heq hhead
        simp [heq, List.count_eq_zero.mpr hother]

end Utf8

end TapeMachine
