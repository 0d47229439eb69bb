/-
# Jump tables

A byte string has a jump table if and only if its brackets are balanced, and then the table holds
the partner of every bracket and nothing else. A table that is refused is refused for one bracket,
which is told in words that have nothing to do with the pass that finds it: prefixes that close
more loops than they open, and openers with a balanced program behind them.
-/

import TapeMachine.Program.Load
import TapeMachine.Proofs.Program.Waiting

namespace TapeMachine

namespace Brackets

open Depth

/-- The closer without an opener ends the first prefix that closes more than it opens. -/
theorem isLeast_overdrawn_of_balanced {stem : List UInt8} (hstem : Balanced stem)
    (rest : List UInt8) :
    IsLeast {length | Overdrawn ((stem ++ Instruction.loopEnd.byte :: rest).take length)}
      (stem.length + 1) := by
  constructor
  · rw [Set.mem_ofPred_eq, overdrawn_iff, List.take_length_add_append]
    simp [hstem.depth_eq_zero]
  · intro length hoverdrawn
    rw [Set.mem_ofPred_eq, overdrawn_iff] at hoverdrawn
    by_contra hshort
    rw [List.take_append_of_le_length (by omega)] at hoverdrawn
    have := hstem.depth_take_nonneg length
    omega

theorem Waiting.not_overdrawn_take {code : List UInt8} {waiting : List Nat}
    (hwaiting : Waiting code waiting) (length : Nat) : ¬ Overdrawn (code.take length) := by
  rw [overdrawn_iff]
  have := hwaiting.depth_take_nonneg length
  omega

/-- Counting from an opener with a balanced program behind it never comes to an end. -/
theorem closer?_eq_none_of_balanced (stem : List UInt8) {body : List UInt8}
    (hbody : Balanced body) :
    closer? (stem ++ Instruction.loopStart.byte :: body) stem.length = none := by
  cases hcloser : closer? (stem ++ Instruction.loopStart.byte :: body) stem.length with
  | none => rfl
  | some closer =>
      obtain ⟨⟨hbehind, -, hzero⟩, -⟩ := (closer?_eq_some_iff (by simp)).mp hcloser
      obtain ⟨read, rfl⟩ := Nat.exists_eq_add_of_lt hbehind
      rw [between, Nat.add_assoc, Nat.add_assoc, List.take_length_add_append, List.drop_left,
        List.take_succ_cons, depth_cons, delta_loopStart] at hzero
      have := hbody.depth_take_nonneg (read + 1)
      omega

/-- Of the openers without a closer, the one with a balanced program behind it is the last. -/
theorem isGreatest_unclosed (stem : List UInt8) {body : List UInt8} (hbody : Balanced body) :
    IsGreatest {opener | (stem ++ Instruction.loopStart.byte :: body)[opener]? =
        some Instruction.loopStart.byte ∧
      closer? (stem ++ Instruction.loopStart.byte :: body) opener = none} stem.length := by
  refine ⟨⟨by simp, closer?_eq_none_of_balanced stem hbody⟩, ?_⟩
  rintro opener ⟨hopens, hnone⟩
  by_contra hbehind
  obtain ⟨further, rfl⟩ := Nat.exists_eq_add_of_lt (Nat.lt_of_not_le hbehind)
  have hinner : body[further]? = some Instruction.loopStart.byte := by
    simpa [Nat.add_assoc, List.getElem?_append_right] using hopens
  obtain ⟨partner, hpartnered⟩ := exists_partnered_of_balanced hbody hinner (by decide)
  have hmatched := (hpartnered.matched_of_opens hinner).append_left
    (stem ++ [Instruction.loopStart.byte])
  rw [List.append_assoc, List.singleton_append, List.length_append, List.length_singleton,
    Nat.add_right_comm] at hmatched
  rw [hmatched.closer?_eq] at hnone
  contradiction

/-- No other opener has a balanced program behind it. -/
theorem opener_before_balanced_iff (stem : List UInt8) {body : List UInt8} (hbody : Balanced body)
    (opener : Nat) :
    (stem ++ Instruction.loopStart.byte :: body)[opener]? = some Instruction.loopStart.byte ∧
      Balanced ((stem ++ Instruction.loopStart.byte :: body).drop (opener + 1)) ↔
    opener = stem.length := by
  constructor
  · rintro ⟨hopens, hbehind⟩
    rcases Nat.lt_trichotomy opener stem.length with hlt | heq | hgt
    · -- The part of the stem behind the opener would have to make up for the later opener.
      rw [List.drop_append_of_le_length (by omega)] at hbehind
      have hdepth := hbehind.depth_eq_zero
      have hprefix := hbehind.depth_take_nonneg (stem.drop (opener + 1)).length
      rw [List.take_left] at hprefix
      rw [depth_append, depth_cons, delta_loopStart, hbody.depth_eq_zero] at hdepth
      omega
    · exact heq
    · -- The body would be in debt in front of the opener.
      obtain ⟨further, rfl⟩ := Nat.exists_eq_add_of_lt hgt
      have hinner : body[further]? = some Instruction.loopStart.byte := by
        simpa [Nat.add_assoc, List.getElem?_append_right] using hopens
      obtain ⟨hlt, hbyte⟩ := List.getElem?_eq_some_iff.mp hinner
      rw [Nat.add_assoc, Nat.add_assoc, List.drop_length_add_append, List.drop_succ_cons] at hbehind
      have hsplit := depth_append (body.take further) (body.drop further)
      rw [List.take_append_drop, hbody.depth_eq_zero, List.drop_eq_getElem_cons hlt, depth_cons,
        hbyte, delta_loopStart, hbehind.depth_eq_zero] at hsplit
      have := hbody.depth_take_nonneg further
      omega
  · rintro rfl
    refine ⟨by simp, ?_⟩
    rw [List.drop_length_add_append, List.drop_succ_cons, List.drop_zero]
    exact hbody

/-- A jump table with an entry for every byte, which names the partners of the brackets. -/
structure IsJumpTable (code : List UInt8) (jumps : Array (Option Int)) : Prop where
  size_eq : jumps.size = code.length
  entry_iff : ∀ (position : Nat) (target : Int), jumps[position]? = some (some target) ↔
    ∃ partner : Nat, target = partner ∧ Partnered code position partner

theorem IsJumpTable.entry_of_partnered {code : List UInt8} {jumps : Array (Option Int)}
    (hjumps : IsJumpTable code jumps) {position partner : Nat}
    (hpartnered : Partnered code position partner) :
    jumps[position]? = some (some (partner : Int)) :=
  (hjumps.entry_iff position partner).mpr ⟨partner, rfl, hpartnered⟩

/-- The table of a balanced program has no target for a byte if and only if that is no bracket. -/
theorem IsJumpTable.entry_eq_none_iff {code : List UInt8} {jumps : Array (Option Int)}
    (hjumps : IsJumpTable code jumps) (hcode : Balanced code) {position : Nat} {byte : UInt8}
    (hbyte : code[position]? = some byte) :
    jumps[position]? = some none ↔ isBracket byte = false := by
  constructor
  · intro hentry
    rw [Bool.eq_false_iff]
    intro hbracket
    obtain ⟨partner, hpartnered⟩ := exists_partnered_of_balanced hcode hbyte hbracket
    rw [hjumps.entry_of_partnered hpartnered] at hentry
    exact absurd (Option.some.inj hentry) (Option.some_ne_none _)
  · intro hleaf
    have hlt : position < jumps.size := by
      rw [hjumps.size_eq]
      exact (List.getElem?_eq_some_iff.mp hbyte).choose
    cases hentry : jumps[position] with
    | none => rw [Array.getElem?_eq_getElem hlt, hentry]
    | some target =>
        obtain ⟨partner, -, hpartnered⟩ := (hjumps.entry_iff position target).mp
          (by rw [Array.getElem?_eq_getElem hlt, hentry])
        rw [hpartnered.isBracket_eq_true hbyte] at hleaf
        contradiction

theorem Recorded.isJumpTable {code : List UInt8} {partners : Partners}
    (hrecorded : Recorded code 0 partners) :
    IsJumpTable code (partners.map (·.map Int.ofNat)) where
  size_eq := by simpa using hrecorded.size_eq
  entry_iff position target := by
    simp only [Array.getElem?_map, Option.map_eq_some_iff]
    constructor
    · rintro ⟨entry, hentry, partner, rfl, rfl⟩
      exact ⟨partner, rfl, (hrecorded.entry_iff position partner).mp hentry⟩
    · rintro ⟨partner, rfl, hpartnered⟩
      exact ⟨_, (hrecorded.entry_iff position partner).mpr hpartnered, partner, rfl, rfl⟩

theorem table_spec (code : List UInt8) :
    match table code with
    | .ok jumps => Balanced code ∧ IsJumpTable code jumps
    | .error report => ∃ unmatched, Unpaired code unmatched ∧
        report = BracketReport.make code unmatched.position unmatched.bracket.byte := by
  have hspec := pair_spec code
  rw [table]
  cases hpair : pair code with
  | ok partners =>
      rw [hpair] at hspec
      exact ⟨hspec.1, hspec.2.isJumpTable⟩
  | error unmatched =>
      rw [hpair] at hspec
      exact ⟨unmatched, hspec, rfl⟩

theorem source_table_eq (code : List UInt8) :
    (Source.bytes code).table = (table code).mapError TableError.brackets := by
  rw [Source.table]
  cases table code with
  | ok jumps => rfl
  | error report => rfl

/-- A byte string has a jump table if and only if its brackets are balanced. Otherwise the report
is on the closer that ends the shortest overdrawn prefix. If no prefix is overdrawn, it is on the
last opener from which counting finds no closer, and that is the one opener with a balanced
program behind it. -/
theorem table_ok_iff_balanced_and_error_locates (code : List UInt8) :
    ((∃ jumps, (Source.bytes code).table = .ok jumps) ↔ Balanced code) ∧
      ∀ error, (Source.bytes code).table = .error error →
        ∃ (report : BracketReport) (position : Nat),
          error = .brackets report ∧ report.position = position ∧
            ((∃ length, Overdrawn (code.take length)) →
              report.bracket = ']' ∧ code[position]? = some Instruction.loopEnd.byte ∧
                IsLeast {length | Overdrawn (code.take length)} (position + 1)) ∧
            ((¬ ∃ length, Overdrawn (code.take length)) →
              report.bracket = '[' ∧
                IsGreatest {opener | code[opener]? = some Instruction.loopStart.byte ∧
                  closer? code opener = none} position ∧
                ∀ opener, code[opener]? = some Instruction.loopStart.byte ∧
                  Balanced (code.drop (opener + 1)) ↔ opener = position) := by
  have hspec := table_spec code
  rw [source_table_eq]
  cases htable : table code with
  | ok jumps =>
      rw [htable] at hspec
      refine ⟨⟨fun _ => hspec.1, fun _ => ⟨jumps, rfl⟩⟩, ?_⟩
      intro error herror
      contradiction
  | error report =>
      rw [htable] at hspec
      obtain ⟨unmatched, hunpaired, rfl⟩ := hspec
      constructor
      · constructor
        · rintro ⟨jumps, hjumps⟩
          contradiction
        · intro hcode
          exact absurd hcode hunpaired.not_balanced
      · intro error herror
        obtain rfl := Except.error.inj herror
        refine ⟨_, unmatched.position, rfl, rfl, ?_⟩
        cases hunpaired with
        | @stray stem rest hstem =>
            have hleast := isLeast_overdrawn_of_balanced hstem rest
            exact ⟨fun _ => ⟨rfl, by simp, hleast⟩, fun hnone => absurd ⟨_, hleast.1⟩ hnone⟩
        | @unclosed stem body waiting hstem hbody =>
            refine ⟨?_, fun _ => ⟨rfl, isGreatest_unclosed stem hbody,
              opener_before_balanced_iff stem hbody⟩⟩
            rintro ⟨length, hoverdrawn⟩
            exact absurd hoverdrawn ((Waiting.opener hstem hbody).not_overdrawn_take length)

/-- Of three openers the last has its closer, and no closer is a stray: the report is on the
second, the only opener with a balanced program behind it. -/
theorem table_error_locates_second_opener :
    (Source.bytes [0x5B, 0x5B, 0x5B, 0x5D, 0x2B]).table =
        .error (.brackets (BracketReport.make [0x5B, 0x5B, 0x5B, 0x5D, 0x2B] 1 0x5B)) ∧
      (¬ ∃ length, Overdrawn ([0x5B, 0x5B, 0x5B, 0x5D, 0x2B].take length)) ∧
      ∀ opener, [0x5B, 0x5B, 0x5B, 0x5D, 0x2B][opener]? = some Instruction.loopStart.byte ∧
        Balanced ([0x5B, 0x5B, 0x5B, 0x5D, 0x2B].drop (opener + 1)) ↔ opener = 1 := by
  have htable : (Source.bytes [0x5B, 0x5B, 0x5B, 0x5D, 0x2B]).table =
      .error (.brackets (BracketReport.make [0x5B, 0x5B, 0x5B, 0x5D, 0x2B] 1 0x5B)) := rfl
  have hbody : Balanced [0x5B, 0x5D, 0x2B] := .loop .nil (.leaf rfl .nil)
  have hwaiting : Waiting [0x5B, 0x5B, 0x5B, 0x5D, 0x2B] [1, 0] :=
    .opener (.opener (.none .nil) .nil) hbody
  have hnone : ¬ ∃ length, Overdrawn ([0x5B, 0x5B, 0x5B, 0x5D, 0x2B].take length) :=
    fun ⟨length, hoverdrawn⟩ => hwaiting.not_overdrawn_take length hoverdrawn
  obtain ⟨report, position, herror, hposition, -, hopener⟩ :=
    (table_ok_iff_balanced_and_error_locates [0x5B, 0x5B, 0x5B, 0x5D, 0x2B]).2 _ htable
  obtain rfl := TableError.brackets.inj herror
  obtain rfl : 1 = position := Int.ofNat.inj hposition
  exact ⟨htable, hnone, (hopener hnone).2.2⟩

/-- The jump table of a byte string agrees with counting the depth at run time: it holds nothing
for a byte that is no bracket, the first position behind an opener at which the depth is zero
again, and the last such position in front of a closer. The two ends of a loop lead to each
other, and the program between them is balanced. -/
theorem table_agrees_with_depth_scan {code : List UInt8} {jumps : Array (Option Int)}
    (htable : (Source.bytes code).table = .ok jumps) :
    jumps.size = code.length ∧
      (∀ (position : Nat) (byte : UInt8), code[position]? = some byte →
        (jumps[position]? = some none ↔ isBracket byte = false)) ∧
      (∀ opener : Nat, code[opener]? = some Instruction.loopStart.byte →
        ∃ closer : Nat, jumps[opener]? = some (some (closer : Int)) ∧
          jumps[closer]? = some (some (opener : Int)) ∧
          closer? code opener = some closer ∧ IsLeast (closings code opener) closer ∧
          Balanced ((code.take closer).drop (opener + 1))) ∧
      (∀ closer : Nat, code[closer]? = some Instruction.loopEnd.byte →
        ∃ opener : Nat, jumps[closer]? = some (some (opener : Int)) ∧
          jumps[opener]? = some (some (closer : Int)) ∧
          opener? code closer = some opener ∧ IsGreatest (openings code closer) opener) := by
  have hspec := table_spec code
  rw [source_table_eq] at htable
  cases hjumps : table code with
  | error report =>
      rw [hjumps] at htable
      contradiction
  | ok made =>
      rw [hjumps] at htable hspec
      obtain rfl : made = jumps := Except.ok.inj htable
      obtain ⟨hcode, hmade⟩ := hspec
      refine ⟨hmade.size_eq, fun _ _ => hmade.entry_eq_none_iff hcode, ?_, ?_⟩
      · intro opener hopens
        obtain ⟨closer, hpartnered⟩ := exists_partnered_of_balanced hcode hopens rfl
        have hmatched := hpartnered.matched_of_opens hopens
        exact ⟨closer, hmade.entry_of_partnered hpartnered,
          hmade.entry_of_partnered hpartnered.symm, hmatched.closer?_eq,
          hmatched.isLeast_closings, hmatched.inside⟩
      · intro closer hcloses
        obtain ⟨opener, hpartnered⟩ := exists_partnered_of_balanced hcode hcloses rfl
        have hmatched := hpartnered.matched_of_closes hcloses
        exact ⟨opener, hmade.entry_of_partnered hpartnered,
          hmade.entry_of_partnered hpartnered.symm, hmatched.opener?_eq,
          hmatched.isGreatest_openings⟩

/-- Two nested loops and an empty one, with bytes that are no brackets between them. -/
theorem table_agrees_with_depth_scan_of_nested :
    (Source.bytes [0x2B, 0x5B, 0x5B, 0x2D, 0x5D, 0x5D, 0x5B, 0x5D]).table =
        .ok #[none, some 5, some 4, none, some 2, some 1, some 7, some 6] ∧
      ∃ closer : Nat,
        #[none, some (5 : Int), some 4, none, some 2, some 1, some 7, some 6][1]? =
            some (some (closer : Int)) ∧
          closer? [0x2B, 0x5B, 0x5B, 0x2D, 0x5D, 0x5D, 0x5B, 0x5D] 1 = some closer := by
  have htable : (Source.bytes [0x2B, 0x5B, 0x5B, 0x2D, 0x5D, 0x5D, 0x5B, 0x5D]).table =
      .ok #[none, some 5, some 4, none, some 2, some 1, some 7, some 6] := by cbv
  obtain ⟨closer, hentry, -, hscan, -⟩ := (table_agrees_with_depth_scan htable).2.2.1 1 rfl
  exact ⟨htable, closer, hentry, hscan⟩

end Brackets

end TapeMachine
