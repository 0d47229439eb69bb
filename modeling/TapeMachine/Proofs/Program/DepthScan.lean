/-
# Partners by counting

Counting the depth from a bracket stops at the first position at which it is zero. For an opener
that is the first position behind it at which the depth, counted from the opener on, is zero; for
a closer it is the last position in front of it at which the depth, counted up to the closer, is
zero. Matched brackets have these properties, so that counting finds them, and a bracket cannot
be matched with two others.
-/

import TapeMachine.Proofs.Program.Matched

namespace TapeMachine

namespace Depth

/-- The scan counts the bytes up to the first at which the sum of the changes is zero. -/
theorem returnsAfter_eq_some_iff {change : UInt8 → Int} {start : Int} {word : List UInt8}
    {count : Nat} :
    returnsAfter change start word = some count ↔
      IsLeast {read | 0 < read ∧ read ≤ word.length ∧
        start + ((word.take read).map change).sum = 0} count := by
  induction word generalizing start count with
  | nil =>
      simp only [returnsAfter, reduceCtorEq, false_iff]
      rintro ⟨⟨hpos, hle, -⟩, -⟩
      rw [List.length_nil] at hle
      omega
  | cons byte rest ih =>
      rw [returnsAfter]
      by_cases hnow : start + change byte = 0
      · simp only [hnow, if_true, Option.some.injEq]
        have hleast : IsLeast {read | 0 < read ∧ read ≤ (byte :: rest).length ∧
            start + (((byte :: rest).take read).map change).sum = 0} 1 :=
          ⟨⟨by omega, by simp, by simpa using hnow⟩, fun read hread => hread.1⟩
        exact ⟨fun hcount => hcount ▸ hleast, fun hother => hleast.unique hother⟩
      · simp only [hnow, if_false, Option.map_eq_some_iff, ih]
        have hmem : ∀ read, 0 < read + 1 ∧ read + 1 ≤ (byte :: rest).length ∧
              start + (((byte :: rest).take (read + 1)).map change).sum = 0 ↔
            0 < read ∧ read ≤ rest.length ∧
              start + change byte + ((rest.take read).map change).sum = 0 := by
          intro read
          rw [List.take_succ_cons, List.map_cons, List.sum_cons, List.length_cons, ← Int.add_assoc]
          cases read with
          | zero => simp [hnow]
          | succ read => simp
        constructor
        · rintro ⟨read, ⟨hread, hleast⟩, rfl⟩
          refine ⟨(hmem read).mpr hread, ?_⟩
          rintro (_ | other) hother
          · exact absurd hother.1 (by omega)
          · exact Nat.succ_le_succ (hleast ((hmem other).mp hother))
        · rintro ⟨hcount, hleast⟩
          obtain ⟨read, rfl⟩ : ∃ read, count = read + 1 := ⟨count - 1, by have := hcount.1; omega⟩
          refine ⟨read, ⟨(hmem read).mp hcount, fun other hother => ?_⟩, rfl⟩
          exact Nat.le_of_succ_le_succ (hleast ((hmem other).mpr hother))

/-- The bytes from one position to another, both included. -/
def between (code : List UInt8) (first last : Nat) : List UInt8 :=
  (code.take (last + 1)).drop first

/-- Where the depth is zero that is counted forwards from an opener. -/
def closings (code : List UInt8) (opener : Nat) : Set Nat :=
  {position | opener < position ∧ position < code.length ∧
    depth (between code opener position) = 0}

/-- Where the depth is zero that is counted backwards from a closer. -/
def openings (code : List UInt8) (closer : Nat) : Set Nat :=
  {position | position < closer ∧ depth (between code position closer) = 0}

theorem between_of_getElem? {code : List UInt8} {first last : Nat} {byte : UInt8}
    (hbyte : code[first]? = some byte) (hle : first ≤ last) :
    between code first last = byte :: (code.drop (first + 1)).take (last - first) := by
  obtain ⟨hlt, rfl⟩ := List.getElem?_eq_some_iff.mp hbyte
  rw [between, List.drop_take, List.drop_eq_getElem_cons hlt, Nat.succ_sub hle,
    List.take_succ_cons]

theorem closer?_eq_some_iff {code : List UInt8} {opener closer : Nat}
    (hopens : code[opener]? = some Instruction.loopStart.byte) :
    closer? code opener = some closer ↔ IsLeast (closings code opener) closer := by
  have hlt : opener < code.length := (List.getElem?_eq_some_iff.mp hopens).choose
  have hmem : ∀ read, opener + read ∈ closings code opener ↔
      0 < read ∧ read ≤ (code.drop (opener + 1)).length ∧
        1 + (((code.drop (opener + 1)).take read).map delta).sum = 0 := by
    intro read
    rw [closings, Set.mem_ofPred_eq, between_of_getElem? hopens (by omega), depth_cons,
      delta_loopStart, depth_eq_sum, List.length_drop, Nat.add_sub_cancel_left]
    constructor
    · rintro ⟨hbehind, hinside, hzero⟩
      exact ⟨by omega, by omega, hzero⟩
    · rintro ⟨hbehind, hinside, hzero⟩
      exact ⟨by omega, by omega, hzero⟩
  rw [closer?, Option.map_eq_some_iff]
  simp only [returnsAfter_eq_some_iff]
  constructor
  · rintro ⟨read, ⟨hread, hleast⟩, rfl⟩
    refine ⟨(hmem read).mpr hread, fun other hother => ?_⟩
    obtain ⟨further, rfl⟩ := Nat.exists_eq_add_of_lt hother.1
    have := hleast ((hmem (further + 1)).mp hother)
    omega
  · rintro ⟨hcloser, hleast⟩
    obtain ⟨further, rfl⟩ := Nat.exists_eq_add_of_lt hcloser.1
    refine ⟨further + 1, ⟨(hmem (further + 1)).mp hcloser, fun other hother => ?_⟩, rfl⟩
    have := hleast ((hmem other).mpr hother)
    omega

theorem between_of_getElem?_last {code : List UInt8} {first last : Nat} {byte : UInt8}
    (hbyte : code[last]? = some byte) (hle : first ≤ last) :
    between code first last = (code.take last).drop first ++ [byte] := by
  obtain ⟨hlt, rfl⟩ := List.getElem?_eq_some_iff.mp hbyte
  rw [between, List.take_succ_eq_append_getElem hlt,
    List.drop_append_of_le_length (by rw [List.length_take]; omega)]

theorem sum_map_neg_delta (code : List UInt8) :
    (code.map fun byte => -delta byte).sum = -depth code := by
  induction code with
  | nil => rfl
  | cons byte code ih => rw [List.map_cons, List.sum_cons, ih, depth_cons, Int.neg_add]

theorem opener?_eq_some_iff {code : List UInt8} {opener closer : Nat}
    (hcloses : code[closer]? = some Instruction.loopEnd.byte) :
    opener? code closer = some opener ↔ IsGreatest (openings code closer) opener := by
  have hlength : (code.take closer).length = closer := by
    rw [List.length_take]
    have := (List.getElem?_eq_some_iff.mp hcloses).choose
    omega
  have hmem : ∀ read, read ≤ closer → (closer - read ∈ openings code closer ↔
      0 < read ∧ read ≤ (code.take closer).reverse.length ∧
        1 + (((code.take closer).reverse.take read).map fun byte => -delta byte).sum = 0) := by
    intro read hread
    have hsum : (((code.take closer).reverse.take read).map fun byte => -delta byte).sum =
        -depth ((code.take closer).drop (closer - read)) := by
      rw [List.take_reverse, hlength, List.map_reverse, List.sum_reverse, sum_map_neg_delta]
    rw [openings, Set.mem_ofPred_eq, between_of_getElem?_last hcloses (by omega), depth_append,
      depth_cons, depth_nil, delta_loopEnd, List.length_reverse, hlength, hsum]
    constructor
    · rintro ⟨hbefore, hzero⟩
      exact ⟨by omega, hread, by omega⟩
    · rintro ⟨hpos, -, hzero⟩
      exact ⟨by omega, by omega⟩
  rw [opener?, Option.map_eq_some_iff]
  simp only [returnsAfter_eq_some_iff]
  constructor
  · rintro ⟨read, ⟨hread, hleast⟩, rfl⟩
    have hle : read ≤ closer := by simpa [hlength] using hread.2.1
    refine ⟨(hmem read hle).mpr hread, fun other hother => ?_⟩
    have hback : closer - (closer - other) = other := Nat.sub_sub_self (Nat.le_of_lt hother.1)
    have := hleast ((hmem (closer - other) (by omega)).mp (hback.symm ▸ hother))
    omega
  · rintro ⟨hopener, hgreatest⟩
    have hback : closer - (closer - opener) = opener :=
      Nat.sub_sub_self (Nat.le_of_lt hopener.1)
    refine ⟨closer - opener, ⟨(hmem _ (by omega)).mp (hback.symm ▸ hopener), ?_⟩, hback⟩
    intro other hother
    have hle : other ≤ closer := by simpa [hlength] using hother.2.1
    have := hgreatest ((hmem other hle).mpr hother)
    omega

end Depth

namespace Brackets

open Depth

/-- Behind an opener the depth stays up until its closer. -/
theorem Matched.isLeast_closings {code : List UInt8} {opener closer : Nat}
    (hmatched : Matched code opener closer) : IsLeast (closings code opener) closer := by
  have hlt := hmatched.closer_lt
  obtain ⟨before, body, after, hbody, rfl, rfl, rfl⟩ := hmatched.exists_eq_append
  have hsegment : ∀ read, between (before ++ Instruction.loopStart.byte ::
        (body ++ Instruction.loopEnd.byte :: after)) before.length (before.length + (read + 1)) =
      Instruction.loopStart.byte ::
        (body ++ Instruction.loopEnd.byte :: after).take (read + 1) := by
    intro read
    rw [between, Nat.add_assoc, List.take_length_add_append, List.drop_left, List.take_succ_cons]
  refine ⟨⟨hmatched.lt, hlt, ?_⟩, ?_⟩
  · rw [hsegment, List.take_length_add_append, List.take_succ_cons, List.take_zero]
    simp [hbody.depth_eq_zero]
  · rintro position ⟨hbehind, -, hzero⟩
    obtain ⟨read, rfl⟩ := Nat.exists_eq_add_of_lt hbehind
    by_contra hshort
    rw [Nat.add_assoc, hsegment, depth_cons, delta_loopStart,
      List.take_append_of_le_length (by omega)] at hzero
    have := hbody.depth_take_nonneg (read + 1)
    omega

/-- In front of a closer the depth stays down until its opener. -/
theorem Matched.isGreatest_openings {code : List UInt8} {opener closer : Nat}
    (hmatched : Matched code opener closer) : IsGreatest (openings code closer) opener := by
  obtain ⟨before, body, after, hbody, rfl, rfl, rfl⟩ := hmatched.exists_eq_append
  have hstem : (before ++ Instruction.loopStart.byte ::
        (body ++ Instruction.loopEnd.byte :: after)).take (before.length + (body.length + 1)) =
      before ++ Instruction.loopStart.byte :: body := by
    rw [List.take_length_add_append, List.take_succ_cons, List.take_left]
  refine ⟨⟨hmatched.lt, ?_⟩, ?_⟩
  · rw [between_of_getElem?_last hmatched.closes (by omega), hstem, List.drop_left]
    simp [hbody.depth_eq_zero]
  · rintro position ⟨hbefore, hzero⟩
    by_contra hlate
    obtain ⟨skipped, rfl⟩ := Nat.exists_eq_add_of_lt (Nat.lt_of_not_le hlate)
    rw [between_of_getElem?_last hmatched.closes (by omega), hstem, Nat.add_assoc,
      List.drop_length_add_append, List.drop_succ_cons, depth_append, depth_cons, depth_nil,
      delta_loopEnd] at hzero
    have := hbody.depth_drop_nonpos skipped
    omega

/-- Counting forwards finds the closer. -/
theorem Matched.closer?_eq {code : List UInt8} {opener closer : Nat}
    (hmatched : Matched code opener closer) : closer? code opener = some closer :=
  (closer?_eq_some_iff hmatched.opens).mpr hmatched.isLeast_closings

/-- Counting backwards finds the opener. -/
theorem Matched.opener?_eq {code : List UInt8} {opener closer : Nat}
    (hmatched : Matched code opener closer) : opener? code closer = some opener :=
  (opener?_eq_some_iff hmatched.closes).mpr hmatched.isGreatest_openings

theorem Matched.closer_unique {code : List UInt8} {opener closer other : Nat}
    (hmatched : Matched code opener closer) (hother : Matched code opener other) :
    closer = other :=
  hmatched.isLeast_closings.unique hother.isLeast_closings

theorem Matched.opener_unique {code : List UInt8} {opener closer other : Nat}
    (hmatched : Matched code opener closer) (hother : Matched code other closer) :
    opener = other :=
  hmatched.isGreatest_openings.unique hother.isGreatest_openings

theorem Partnered.symm {code : List UInt8} {position partner : Nat}
    (hpartnered : Partnered code position partner) : Partnered code partner position :=
  Or.symm hpartnered

/-- The partner of an opener stands behind it. -/
theorem Partnered.matched_of_opens {code : List UInt8} {opener partner : Nat}
    (hpartnered : Partnered code opener partner)
    (hopens : code[opener]? = some Instruction.loopStart.byte) : Matched code opener partner := by
  rcases hpartnered with hmatched | hmatched
  · exact hmatched
  · have := hopens.symm.trans hmatched.closes
    contradiction

/-- The partner of a closer stands in front of it. -/
theorem Partnered.matched_of_closes {code : List UInt8} {closer partner : Nat}
    (hpartnered : Partnered code closer partner)
    (hcloses : code[closer]? = some Instruction.loopEnd.byte) : Matched code partner closer := by
  rcases hpartnered with hmatched | hmatched
  · have := hcloses.symm.trans hmatched.opens
    contradiction
  · exact hmatched

theorem Partnered.unique {code : List UInt8} {position partner other : Nat}
    (hpartner : Partnered code position partner) (hother : Partnered code position other) :
    partner = other := by
  rcases hpartner with hmatched | hmatched
  · exact hmatched.closer_unique (hother.matched_of_opens hmatched.opens)
  · exact hmatched.opener_unique (hother.matched_of_closes hmatched.closes)

/-- Only brackets have partners. -/
theorem Partnered.isBracket_eq_true {code : List UInt8} {position partner : Nat} {byte : UInt8}
    (hpartnered : Partnered code position partner) (hbyte : code[position]? = some byte) :
    isBracket byte = true := by
  rcases hpartnered with hmatched | hmatched
  · obtain rfl : byte = _ := Option.some.inj (hbyte.symm.trans hmatched.opens)
    rfl
  · obtain rfl : byte = _ := Option.some.inj (hbyte.symm.trans hmatched.closes)
    rfl

end Brackets

end TapeMachine
