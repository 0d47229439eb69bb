/-
# Pairing in one pass

The pass that pairs the brackets keeps the openers without a partner on a stack. Of the code that
has been read, they cut out balanced programs: one in front of the outermost opener, and one
behind each of them. A closer ends the last of these programs, and with it the loop that the
innermost opener has begun; if there is no opener, the closer has no partner and everything in
front of it is balanced.

The table holds, at every moment, the partners of all brackets of the code that has been read.
-/

import TapeMachine.Program.Brackets
import TapeMachine.Proofs.Program.DepthScan

namespace TapeMachine

namespace Brackets

open Depth

/-- The openers of a code that have no partner, the innermost first, when no closer lacks one. -/
inductive Waiting : List UInt8 → List Nat → Prop
  | none {code : List UInt8} (hcode : Balanced code) : Waiting code []
  | opener {code body : List UInt8} {waiting : List Nat} (houter : Waiting code waiting)
      (hbody : Balanced body) :
      Waiting (code ++ Instruction.loopStart.byte :: body) (code.length :: waiting)

theorem Waiting.append_balanced {code more : List UInt8} {waiting : List Nat}
    (hwaiting : Waiting code waiting) (hmore : Balanced more) : Waiting (code ++ more) waiting := by
  cases hwaiting with
  | none hcode => exact .none (hcode.append hmore)
  | opener houter hbody =>
      rw [List.append_assoc, List.cons_append]
      exact .opener houter (hbody.append hmore)

theorem Waiting.depth_eq {code : List UInt8} {waiting : List Nat}
    (hwaiting : Waiting code waiting) : depth code = waiting.length := by
  induction hwaiting with
  | none hcode => simp [hcode.depth_eq_zero]
  | opener _ hbody ih => simp [ih, hbody.depth_eq_zero]

theorem Waiting.depth_take_nonneg {code : List UInt8} {waiting : List Nat}
    (hwaiting : Waiting code waiting) (length : Nat) : 0 ≤ depth (code.take length) := by
  induction hwaiting with
  | none hcode => exact hcode.depth_take_nonneg length
  | @opener code body waiting houter hbody ih =>
      rw [List.take_append, depth_append]
      cases hcut : length - code.length with
      | zero => simpa using ih
      | succ further =>
          have hinner := hbody.depth_take_nonneg further
          rw [List.take_succ_cons, depth_cons, delta_loopStart]
          omega

/-- The bracket that keeps a code from being paired. -/
inductive Unpaired : List UInt8 → UnmatchedBracket → Prop
  /-- A closer with nothing to close. -/
  | stray {stem rest : List UInt8} (hstem : Balanced stem) :
      Unpaired (stem ++ Instruction.loopEnd.byte :: rest) ⟨stem.length, .loopEnd⟩
  /-- The innermost of the openers that are left at the end. -/
  | unclosed {stem body : List UInt8} {waiting : List Nat} (hstem : Waiting stem waiting)
      (hbody : Balanced body) :
      Unpaired (stem ++ Instruction.loopStart.byte :: body) ⟨stem.length, .loopStart⟩

/-- A code of which a bracket cannot be paired is not balanced. -/
theorem Unpaired.not_balanced {code : List UInt8} {unmatched : UnmatchedBracket}
    (hunpaired : Unpaired code unmatched) : ¬ Balanced code := by
  intro hcode
  cases hunpaired with
  | @stray stem rest hstem =>
      have hcut := hcode.depth_take_nonneg (stem.length + 1)
      rw [List.take_length_add_append, List.take_succ_cons, List.take_zero, depth_append,
        hstem.depth_eq_zero] at hcut
      simp at hcut
  | unclosed hstem hbody =>
      have hdepth := (Waiting.opener hstem hbody).depth_eq
      rw [hcode.depth_eq_zero] at hdepth
      simp at hdepth
      omega

/-- A table that holds the partners of a code, and room for more code. -/
structure Recorded (code : List UInt8) (room : Nat) (partners : Partners) : Prop where
  size_eq : partners.size = code.length + room
  entry_iff : ∀ position partner,
    partners[position]? = some (some partner) ↔ Partnered code position partner

theorem recorded_nil (room : Nat) : Recorded [] room (Array.replicate room none) where
  size_eq := by simp
  entry_iff position partner := by
    constructor
    · intro hentry
      simp [Array.getElem?_replicate] at hentry
    · intro hpartnered
      exact absurd hpartnered.lt_length (Nat.not_lt_zero _)

/-- A byte that closes nothing adds no partners. -/
theorem matched_append_singleton_iff {code : List UInt8} {byte : UInt8} {opener closer : Nat}
    (hbyte : byte ≠ Instruction.loopEnd.byte) :
    Matched (code ++ [byte]) opener closer ↔ Matched code opener closer := by
  constructor
  · intro hmatched
    have hlt : closer < code.length := by
      by_contra hge
      have hend : closer = code.length := by
        have := hmatched.closer_lt
        simp at this
        omega
      have hcloses := hmatched.closes
      rw [hend] at hcloses
      simp [hbyte] at hcloses
    exact (matched_append_right_iff hlt).mp hmatched
  · intro hmatched
    exact (matched_append_right_iff hmatched.closer_lt).mpr hmatched

theorem Recorded.append_singleton {code : List UInt8} {room : Nat} {partners : Partners}
    (hrecorded : Recorded code (room + 1) partners) {byte : UInt8}
    (hbyte : byte ≠ Instruction.loopEnd.byte) : Recorded (code ++ [byte]) room partners where
  size_eq := by
    rw [hrecorded.size_eq, List.length_append, List.length_singleton]
    omega
  entry_iff position partner := by
    rw [hrecorded.entry_iff, Partnered, Partnered, matched_append_singleton_iff hbyte,
      matched_append_singleton_iff hbyte]

/-- A closer ends the loop of the innermost opener, and no other. -/
theorem matched_append_closer_iff {stem body : List UInt8} (hbody : Balanced body)
    {opener closer : Nat} :
    Matched (stem ++ Instruction.loopStart.byte :: body ++ [Instruction.loopEnd.byte])
        opener closer ↔
      Matched (stem ++ Instruction.loopStart.byte :: body) opener closer ∨
        opener = stem.length ∧ closer = stem.length + (body.length + 1) := by
  have hnew : Matched (stem ++ Instruction.loopStart.byte :: body ++ [Instruction.loopEnd.byte])
      stem.length (stem.length + (body.length + 1)) := by
    simpa using matched_append_loop stem [] hbody
  constructor
  · intro hmatched
    by_cases hlt : closer < (stem ++ Instruction.loopStart.byte :: body).length
    · exact .inl ((matched_append_right_iff hlt).mp hmatched)
    · have hend : closer = stem.length + (body.length + 1) := by
        have := hmatched.closer_lt
        simp at this hlt
        omega
      subst hend
      exact .inr ⟨hmatched.opener_unique hnew, rfl⟩
  · rintro (hmatched | ⟨rfl, rfl⟩)
    · exact (matched_append_right_iff hmatched.closer_lt).mpr hmatched
    · exact hnew

theorem size_join (partners : Partners) (opener closer : Nat) :
    (join partners opener closer).size = partners.size := by
  rw [join, Array.size_setIfInBounds, Array.size_setIfInBounds]

theorem join_getElem? (partners : Partners) {opener closer : Nat} (hlt : opener < closer)
    (hroom : closer < partners.size) (position : Nat) :
    (join partners opener closer)[position]? =
      if position = closer then some (some opener)
      else if position = opener then some (some closer)
      else partners[position]? := by
  rw [join]
  by_cases hcloser : position = closer
  · subst hcloser
    simp [hroom]
  · rw [Array.getElem?_setIfInBounds_ne (Ne.symm hcloser), if_neg hcloser]
    by_cases hopener : position = opener
    · subst hopener
      have hfirst : position < partners.size := hlt.trans hroom
      simp [hfirst]
    · rw [Array.getElem?_setIfInBounds_ne (Ne.symm hopener), if_neg hopener]

/-- A table that knows only partners learns two more when the ends of a loop are joined. -/
theorem join_entry_iff {code : List UInt8} {partners : Partners}
    {opener closer : Nat} (hroom : closer < partners.size)
    (hpartners : ∀ position partner, partners[position]? = some (some partner) →
      Partnered code position partner)
    (hmatched : Matched code opener closer) (position partner : Nat) :
    (join partners opener closer)[position]? = some (some partner) ↔
      partners[position]? = some (some partner) ∨
        (position, partner) = (opener, closer) ∨ (partner, position) = (opener, closer) := by
  rw [join_getElem? partners hmatched.lt hroom, Prod.mk.injEq, Prod.mk.injEq]
  by_cases hcloser : position = closer
  · subst hcloser
    rw [if_pos rfl, Option.some.injEq, Option.some.injEq]
    constructor
    · rintro rfl
      exact .inr (.inr ⟨rfl, rfl⟩)
    · rintro (hentry | ⟨rfl, rfl⟩ | ⟨rfl, -⟩)
      · exact Partnered.unique (.inr hmatched) (hpartners _ _ hentry)
      · rfl
      · rfl
  · rw [if_neg hcloser]
    by_cases hopener : position = opener
    · subst hopener
      rw [if_pos rfl, Option.some.injEq, Option.some.injEq]
      constructor
      · rintro rfl
        exact .inr (.inl ⟨rfl, rfl⟩)
      · rintro (hentry | ⟨-, rfl⟩ | ⟨-, hposition⟩)
        · exact Partnered.unique (.inl hmatched) (hpartners _ _ hentry)
        · rfl
        · exact absurd hposition hcloser
    · simp [hcloser, hopener]

/-- Joining the innermost opener with a closer records their loop, and keeps all loops recorded
before: none of them has one of these two brackets. -/
theorem Recorded.join_closer {stem body : List UInt8} {room : Nat} {partners : Partners}
    (hbody : Balanced body)
    (hrecorded : Recorded (stem ++ Instruction.loopStart.byte :: body) (room + 1) partners) :
    Recorded (stem ++ Instruction.loopStart.byte :: body ++ [Instruction.loopEnd.byte]) room
      (join partners stem.length (stem ++ Instruction.loopStart.byte :: body).length) where
  size_eq := by
    have hlength : (stem ++ Instruction.loopStart.byte :: body ++
        [Instruction.loopEnd.byte]).length =
      (stem ++ Instruction.loopStart.byte :: body).length + 1 := by simp [Nat.add_assoc]
    rw [size_join, hrecorded.size_eq, hlength]
    omega
  entry_iff position partner := by
    have hlength : (stem ++ Instruction.loopStart.byte :: body).length =
        stem.length + (body.length + 1) := List.length_append
    have hroom : stem.length + (body.length + 1) < partners.size := by
      rw [hrecorded.size_eq, hlength]
      omega
    have hpartners : ∀ position partner, partners[position]? = some (some partner) →
        Partnered (stem ++ Instruction.loopStart.byte :: body ++ [Instruction.loopEnd.byte])
          position partner := by
      intro position partner hentry
      exact ((hrecorded.entry_iff position partner).mp hentry).append_right _
    have hnew : Matched (stem ++ Instruction.loopStart.byte :: body ++ [Instruction.loopEnd.byte])
        stem.length (stem.length + (body.length + 1)) :=
      (matched_append_closer_iff hbody).mpr (.inr ⟨rfl, rfl⟩)
    rw [hlength, join_entry_iff hroom hpartners hnew, hrecorded.entry_iff, Partnered, Partnered,
      matched_append_closer_iff hbody, matched_append_closer_iff hbody, Prod.mk.injEq,
      Prod.mk.injEq]
    exact or_or_or_comm

theorem scan_loopStart (rest : List UInt8) (position : Nat) (waiting : List Nat)
    (partners : Partners) :
    scan (Instruction.loopStart.byte :: rest) position waiting partners =
      scan rest (position + 1) (position :: waiting) partners := by
  simp [scan, Instruction.ofByte?_byte]

theorem scan_loopEnd_nil (rest : List UInt8) (position : Nat) (partners : Partners) :
    scan (Instruction.loopEnd.byte :: rest) position [] partners =
      .error ⟨position, .loopEnd⟩ := by
  simp [scan, Instruction.ofByte?_byte]

theorem scan_loopEnd_cons (rest : List UInt8) (position opener : Nat) (waiting : List Nat)
    (partners : Partners) :
    scan (Instruction.loopEnd.byte :: rest) position (opener :: waiting) partners =
      scan rest (position + 1) waiting (join partners opener position) := by
  simp [scan, Instruction.ofByte?_byte]

theorem scan_leaf {byte : UInt8} (hleaf : isBracket byte = false) (rest : List UInt8)
    (position : Nat) (waiting : List Nat) (partners : Partners) :
    scan (byte :: rest) position waiting partners =
      scan rest (position + 1) waiting partners := by
  cases hbyte : Instruction.ofByte? byte with
  | none => simp [scan, hbyte]
  | some instruction =>
      obtain rfl := Instruction.ofByte?_eq_some_iff.mp hbyte
      cases instruction with
      | loopStart | loopEnd => exact absurd hleaf (by decide)
      | right | left | increment | decrement | output | input => simp [scan, hbyte]

/-- What the pass makes of a code of which it has read the first part. -/
theorem scan_spec {code rest : List UInt8} {waiting : List Nat} {partners : Partners}
    (hwaiting : Waiting code waiting) (hrecorded : Recorded code rest.length partners) :
    match scan rest code.length waiting partners with
    | .ok table => Balanced (code ++ rest) ∧ Recorded (code ++ rest) 0 table
    | .error unmatched => Unpaired (code ++ rest) unmatched := by
  induction rest generalizing code waiting partners with
  | nil =>
      rw [List.append_nil]
      cases hwaiting with
      | none hcode => exact ⟨hcode, hrecorded⟩
      | opener houter hbody => exact .unclosed houter hbody
  | cons byte rest ih =>
      have hread : code ++ byte :: rest = code ++ [byte] ++ rest := by simp
      have hlength : code.length + 1 = (code ++ [byte]).length := by simp
      rcases eq_loopStart_or_eq_loopEnd_or_leaf byte with rfl | rfl | hleaf
      · rw [scan_loopStart, hread, hlength]
        exact ih (.opener hwaiting .nil) (hrecorded.append_singleton (by decide))
      · cases hwaiting with
        | none hcode =>
            rw [scan_loopEnd_nil]
            exact .stray hcode
        | @opener stem body waiting houter hbody =>
            have hloop : Balanced (Instruction.loopStart.byte ::
                (body ++ [Instruction.loopEnd.byte])) := .loop hbody .nil
            have hclosed : Waiting (stem ++ Instruction.loopStart.byte :: body ++
                [Instruction.loopEnd.byte]) waiting := by
              simpa using houter.append_balanced hloop
            rw [scan_loopEnd_cons, hread, hlength]
            exact ih hclosed (hrecorded.join_closer hbody)
      · have hbyte : byte ≠ Instruction.loopEnd.byte := by
          rintro rfl
          contradiction
        rw [scan_leaf hleaf, hread, hlength]
        exact ih (hwaiting.append_balanced (.leaf hleaf .nil)) (hrecorded.append_singleton hbyte)

theorem pair_spec (code : List UInt8) :
    match pair code with
    | .ok table => Balanced code ∧ Recorded code 0 table
    | .error unmatched => Unpaired code unmatched :=
  scan_spec (.none .nil) (recorded_nil code.length)

end Brackets

end TapeMachine
