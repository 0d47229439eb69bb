/-
# Decoding any bytes

A byte below 0x80 is a character of its own wherever it stands. A character that is unfinished in
front of it is replaced, and behind it the decoder is between two characters. So the bytes in front
of it are decoded as if the text ended there, and those behind it as if the text began there,
however ill formed they are.

All other bytes have a part only in characters that need more than one of them, and in
replacements. So the line feeds of a decoded text are those of its bytes, and a text never has more
characters than bytes.
-/

import TapeMachine.Text.Utf8

namespace TapeMachine.Utf8

/-- The characters of bytes that come when the decoder stands where it does. -/
def decodeFrom : Pending → List UInt8 → List Char
  | pending, [] => finish pending
  | pending, byte :: rest => (step pending byte).2 ++ decodeFrom (step pending byte).1 rest

theorem toList_foldl_feed (bytes : List UInt8) (decoder : Decoder) :
    ((bytes.foldl Decoder.feed decoder).chars ++
        finish (bytes.foldl Decoder.feed decoder).pending).toList =
      decoder.chars.toList ++ decodeFrom decoder.pending bytes := by
  induction bytes generalizing decoder with
  | nil => simp [decodeFrom]
  | cons byte bytes ih => simp [ih, decodeFrom, Decoder.feed]

theorem decode_eq_decodeFrom (bytes : List UInt8) : decode bytes = decodeFrom .nothing bytes := by
  rw [decode, toList_foldl_feed, List.nil_append]

/-- The decoder does not wait for an ASCII byte, and a character that it is in will need more than
one byte: its bits are not all zero, or will not be when the next byte has been read. -/
def Pending.Wide : Pending → Prop
  | .nothing => True
  | .inside _ low _ bits => 0x80 ≤ low ∧ (bits = 0 → 0x90 ≤ low)

theorem Pending.wide_nothing : Pending.nothing.Wide := trivial

theorem lead_wide (byte : UInt8) : (lead byte).1.Wide := by
  have hbyte (other : UInt8) : byte = other ↔ byte.toNat = other.toNat := UInt8.toNat_inj.symm
  simp only [lead, UInt8.lt_iff_toNat_lt, hbyte]
  grind [Pending.Wide]

theorem lead_of_ascii {byte : UInt8} (hascii : byte < 0x80) :
    lead byte = (.nothing, [Char.ofNat byte.toNat]) := by
  rw [lead, if_pos hascii]

theorem lineFeed_notMem_lead {byte : UInt8} (hwide : 0x80 ≤ byte) : '\n' ∉ (lead byte).2 := by
  grind [lead, replacement]

theorem lineFeed_notMem_finish (pending : Pending) : '\n' ∉ finish pending := by
  cases pending <;> simp [finish, replacement]

theorem eq_of_ofNat_eq_lineFeed {value : Nat} (hvalue : Char.ofNat value = '\n') :
    value = 0x0A := by
  by_cases hvalid : value.isValidChar
  · rw [Char.ofNat, dif_pos hvalid] at hvalue
    exact congrArg Char.toNat hvalue
  · rw [Char.ofNat, dif_neg hvalid] at hvalue
    contradiction

/-- A byte that continues a character, as the decoder reads it. -/
theorem step_continue {later bits : Nat} {low high byte : UInt8}
    (hbyte : low ≤ byte ∧ byte ≤ high) :
    step (.inside later low high bits) byte =
      match later with
      | 0 => (.nothing, [Char.ofNat (bits * 64 + (byte.toNat - 0x80))])
      | later + 1 => (.inside later 0x80 0xBF (bits * 64 + (byte.toNat - 0x80)), []) := by
  cases later with
  | zero => simp only [step, if_pos hbyte]
  | succ later => simp only [step, if_pos hbyte]

/-- Any other byte ends the character and is read again. -/
theorem step_resume {later bits : Nat} {low high byte : UInt8}
    (hbyte : ¬ (low ≤ byte ∧ byte ≤ high)) :
    step (.inside later low high bits) byte =
      ((lead byte).1, replacement :: (lead byte).2) := by
  simp only [step, if_neg hbyte]

/-- The bits of a character are not all zero when a byte has continued it. -/
theorem Pending.Wide.le_bits {later bits : Nat} {low high byte : UInt8}
    (hwide : (Pending.inside later low high bits).Wide) (hlow : low ≤ byte) :
    0x10 ≤ bits * 64 + (byte.toNat - 0x80) := by
  obtain ⟨-, hbits⟩ := hwide
  rcases Nat.eq_zero_or_pos bits with hzero | hpos
  · have hle : (0x90 : UInt8) ≤ byte := UInt8.le_trans (hbits hzero) hlow
    rw [UInt8.le_iff_toNat_le] at hle
    have hnat : (0x90 : UInt8).toNat = 0x90 := rfl
    omega
  · omega

theorem step_wide {pending : Pending} (hwide : pending.Wide) (byte : UInt8) :
    (step pending byte).1.Wide := by
  cases pending with
  | nothing => exact lead_wide byte
  | inside later low high bits =>
      by_cases hbyte : low ≤ byte ∧ byte ≤ high
      · rw [step_continue hbyte]
        cases later with
        | zero => trivial
        | succ later =>
            have hbits := hwide.le_bits hbyte.1
            exact ⟨UInt8.le_refl _, fun hzero => by omega⟩
      · rw [step_resume hbyte]
        exact lead_wide byte

/-- An ASCII byte ends what the decoder is in and is a character of its own. -/
theorem step_of_ascii {pending : Pending} (hwide : pending.Wide) {byte : UInt8}
    (hascii : byte < 0x80) :
    step pending byte = (.nothing, finish pending ++ [Char.ofNat byte.toNat]) := by
  cases pending with
  | nothing => exact lead_of_ascii hascii
  | inside later low high bits =>
      have hbyte : ¬ (low ≤ byte ∧ byte ≤ high) := fun hbyte =>
        UInt8.not_lt.mpr (UInt8.le_trans hwide.1 hbyte.1) hascii
      rw [step_resume hbyte, lead_of_ascii hascii]
      rfl

/-- Any other byte finishes no line. -/
theorem lineFeed_notMem_step {pending : Pending} (hwide : pending.Wide) {byte : UInt8}
    (hbyte : 0x80 ≤ byte) : '\n' ∉ (step pending byte).2 := by
  cases pending with
  | nothing => exact lineFeed_notMem_lead hbyte
  | inside later low high bits =>
      by_cases hcontinue : low ≤ byte ∧ byte ≤ high
      · rw [step_continue hcontinue]
        cases later with
        | zero =>
            have hbits := hwide.le_bits hcontinue.1
            intro hmem
            have hvalue := eq_of_ofNat_eq_lineFeed (List.mem_singleton.mp hmem).symm
            omega
        | succ later => exact List.not_mem_nil
      · rw [step_resume hcontinue, List.mem_cons, not_or]
        exact ⟨by decide, lineFeed_notMem_lead hbyte⟩

/-- Bytes in front of an ASCII byte are decoded as if the text ended behind them. -/
theorem decodeFrom_append_cons {pending : Pending} (hwide : pending.Wide) (before : List UInt8)
    {byte : UInt8} (hascii : byte < 0x80) (after : List UInt8) :
    decodeFrom pending (before ++ byte :: after) =
      decodeFrom pending before ++ Char.ofNat byte.toNat :: decode after := by
  induction before generalizing pending with
  | nil =>
      rw [List.nil_append, decodeFrom.eq_2, step_of_ascii hwide hascii, decodeFrom.eq_1,
        decode_eq_decodeFrom, List.append_assoc, List.singleton_append]
  | cons first before ih =>
      rw [List.cons_append, decodeFrom, decodeFrom, ih (step_wide hwide first), List.append_assoc]

/-- An ASCII byte is a character of its own, whatever stands around it. -/
theorem decode_append_cons (before : List UInt8) {byte : UInt8} (hascii : byte < 0x80)
    (after : List UInt8) :
    decode (before ++ byte :: after) = decode before ++ Char.ofNat byte.toNat :: decode after := by
  rw [decode_eq_decodeFrom, decode_eq_decodeFrom before]
  exact decodeFrom_append_cons Pending.wide_nothing before hascii after

/-- A byte finishes a line feed if and only if it is one. -/
theorem count_step {pending : Pending} (hwide : pending.Wide) (byte : UInt8) :
    (step pending byte).2.count '\n' = [byte].count 0x0A := by
  by_cases hascii : byte < 0x80
  · have hfinish := List.count_eq_zero.mpr (lineFeed_notMem_finish pending)
    rw [step_of_ascii hwide hascii, List.count_append, hfinish, Nat.zero_add]
    by_cases hfeed : byte = 0x0A
    · rw [hfeed]
      rfl
    · have hchar : Char.ofNat byte.toNat ≠ '\n' := fun hchar =>
        hfeed (UInt8.toNat_inj.mp (eq_of_ofNat_eq_lineFeed hchar))
      rw [List.count_singleton, List.count_singleton, beq_eq_false_iff_ne.mpr hchar,
        beq_eq_false_iff_ne.mpr hfeed]
  · have hbyte := UInt8.not_lt.mp hascii
    have hfeed : byte ≠ 0x0A := fun hfeed => hascii (hfeed ▸ by decide)
    rw [List.count_eq_zero.mpr (lineFeed_notMem_step hwide hbyte), List.count_singleton,
      beq_eq_false_iff_ne.mpr hfeed]
    rfl

theorem count_decodeFrom {pending : Pending} (hwide : pending.Wide) (bytes : List UInt8) :
    (decodeFrom pending bytes).count '\n' = bytes.count 0x0A := by
  induction bytes generalizing pending with
  | nil => exact List.count_eq_zero.mpr (lineFeed_notMem_finish pending)
  | cons byte bytes ih =>
      rw [decodeFrom, List.count_append, count_step hwide, ih (step_wide hwide byte),
        ← List.count_append, List.singleton_append]

/-- The line feeds of a decoded text are those of its bytes. -/
theorem count_decode (bytes : List UInt8) : (decode bytes).count '\n' = bytes.count 0x0A := by
  rw [decode_eq_decodeFrom]
  exact count_decodeFrom Pending.wide_nothing bytes

theorem length_lead_le (byte : UInt8) :
    (lead byte).2.length + (finish (lead byte).1).length ≤ 1 := by
  grind [lead, finish]

/-- With what is then still owed, a byte adds one character at most to what was owed before. -/
theorem length_step_le (pending : Pending) (byte : UInt8) :
    (step pending byte).2.length + (finish (step pending byte).1).length ≤
      (finish pending).length + 1 := by
  have hlead := length_lead_le byte
  cases pending with
  | nothing => exact hlead
  | inside later low high bits =>
      have howed : (finish (.inside later low high bits)).length = 1 := rfl
      by_cases hbyte : low ≤ byte ∧ byte ≤ high
      · rw [step_continue hbyte]
        cases later with
        | zero => exact Nat.le_succ 1
        | succ later => exact Nat.le_succ 1
      · simp only [step_resume hbyte, howed, List.length_cons]
        omega

theorem length_decodeFrom_le (pending : Pending) (bytes : List UInt8) :
    (decodeFrom pending bytes).length ≤ (finish pending).length + bytes.length := by
  induction bytes generalizing pending with
  | nil => exact Nat.le_refl _
  | cons byte bytes ih =>
      have hstep := length_step_le pending byte
      have hrest := ih (step pending byte).1
      rw [decodeFrom, List.length_append, List.length_cons]
      omega

/-- There are no more characters than bytes. -/
theorem length_decode_le (bytes : List UInt8) : (decode bytes).length ≤ bytes.length := by
  have hlength := length_decodeFrom_le .nothing bytes
  rwa [← decode_eq_decodeFrom, finish, List.length_nil, Nat.zero_add] at hlength

end TapeMachine.Utf8
