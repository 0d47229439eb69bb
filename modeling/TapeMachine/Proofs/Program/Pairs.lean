/-
# Pairs of brackets

The pairs of a loaded program are its loops, in the order in which they start. They are read off the
table, an entry at a time, and say all that the table says: every bracket is an end of one pair, and
a blank table becomes the table of the program when the two ends of every pair are joined.

Of two loops neither ends inside the other without having started there. An opener inside a loop has
its closer there too, since what stands inside is a balanced program, and it has no other closer.
-/

import Mathlib.Data.List.Nodup
import Mathlib.Data.List.Sort
import TapeMachine.Event
import TapeMachine.Proofs.Program.Loaded

namespace TapeMachine

namespace Brackets

/-! ## Loops do not cross -/

/-- A loop that starts behind an opener is behind the whole loop of that opener or inside it. -/
theorem Matched.lt_or_lt {code : List UInt8} {opener closer later laterCloser : Nat}
    (hmatched : Matched code opener closer) (hlater : Matched code later laterCloser)
    (hlt : opener < later) : closer < later ∨ laterCloser < closer := by
  rcases Nat.lt_trichotomy closer later with hbehind | rfl | hinside
  · exact .inl hbehind
  · have := hmatched.closes.symm.trans hlater.opens
    contradiction
  · obtain ⟨before, body, after, hbody, rfl, rfl, rfl⟩ := hmatched.exists_eq_append
    obtain ⟨inner, rfl⟩ := Nat.exists_eq_add_of_lt hlt
    have hopens : body[inner]? = some Instruction.loopStart.byte := by
      have hopens := hlater.opens
      rw [List.getElem?_append_right (by omega), Nat.add_assoc, Nat.add_sub_cancel_left,
        List.getElem?_cons_succ, List.getElem?_append_left (by omega)] at hopens
      exact hopens
    obtain ⟨innerCloser, hpartnered⟩ := exists_partnered_of_balanced hbody hopens (by decide)
    have hbefore : (before ++ [Instruction.loopStart.byte]).length = before.length + 1 :=
      List.length_append
    -- The closer that the body has for it is its closer in the whole code.
    have hwhole := ((hpartnered.append_right (Instruction.loopEnd.byte :: after)).append_left
      (before ++ [Instruction.loopStart.byte]))
    rw [List.append_assoc, List.singleton_append, hbefore, Nat.add_right_comm] at hwhole
    have hcloser := hlater.closer_unique (hwhole.matched_of_opens hlater.opens)
    have := (hpartnered.matched_of_opens hopens).closer_lt
    exact .inr (by omega)

/-- One pair ends in front of the other. -/
def Apart (first second : Nat × Int) : Prop :=
  first.2 < second.1 ∨ second.2 < first.1

/-- One pair stands between the two positions of the other. -/
def Nested (first second : Nat × Int) : Prop :=
  first.1 < second.1 ∧ second.2 < first.2 ∨ second.1 < first.1 ∧ first.2 < second.2

/-- Two loops do not cross. -/
theorem Matched.apart_or_nested {code : List UInt8} {opener closer other otherCloser : Nat}
    (hmatched : Matched code opener closer) (hother : Matched code other otherCloser)
    (hne : opener ≠ other) :
    Apart (opener, closer) (other, otherCloser) ∨ Nested (opener, closer) (other, otherCloser) := by
  rw [Apart, Nested]
  rcases Nat.lt_or_gt_of_ne hne with hlt | hgt
  · rcases hmatched.lt_or_lt hother hlt with hbehind | hinside
    · exact .inl (.inl (Int.ofNat_lt.mpr hbehind))
    · exact .inr (.inl ⟨hlt, Int.ofNat_lt.mpr hinside⟩)
  · rcases hother.lt_or_lt hmatched hgt with hbehind | hinside
    · exact .inl (.inr (Int.ofNat_lt.mpr hbehind))
    · exact .inr (.inr ⟨hgt, Int.ofNat_lt.mpr hinside⟩)

/-! ## A table from its loops -/

/-- Join the two ends of every loop in a table. -/
def joinAll (partners : Partners) (loops : List (Nat × Nat)) : Partners :=
  loops.foldl (fun partners loop => join partners loop.1 loop.2) partners

/-- The jump table of so many bytes with these pairs of brackets. -/
def tableOfPairs (size : Nat) (pairs : List (Nat × Int)) : Array (Option Int) :=
  (joinAll (Array.replicate size none) (pairs.map (Prod.map id Int.toNat))).map (·.map Int.ofNat)

theorem size_joinAll (partners : Partners) (loops : List (Nat × Nat)) :
    (joinAll partners loops).size = partners.size := by
  induction loops generalizing partners with
  | nil => rfl
  | cons loop loops ih => exact (ih _).trans (size_join partners loop.1 loop.2)

/-- What a table that knows only partners knows once the ends of loops are joined. -/
theorem joinAll_entry_iff {code : List UInt8} {partners : Partners} {loops : List (Nat × Nat)}
    (hsize : partners.size = code.length)
    (hpartners : ∀ position partner, partners[position]? = some (some partner) →
      Partnered code position partner)
    (hloops : ∀ opener closer, (opener, closer) ∈ loops → Matched code opener closer)
    (position partner : Nat) :
    (joinAll partners loops)[position]? = some (some partner) ↔
      partners[position]? = some (some partner) ∨
        (position, partner) ∈ loops ∨ (partner, position) ∈ loops := by
  induction loops generalizing partners with
  | nil => simp [joinAll]
  | cons loop loops ih =>
      obtain ⟨opener, closer⟩ := loop
      have hmatched := hloops opener closer List.mem_cons_self
      have hroom : closer < partners.size := hsize ▸ hmatched.closer_lt
      have hjoin := join_entry_iff hroom hpartners hmatched
      have hjoined : ∀ position partner,
          (join partners opener closer)[position]? = some (some partner) →
            Partnered code position partner := by
        intro position partner hentry
        rcases (hjoin position partner).mp hentry with hold | hnew | hnew
        · exact hpartners position partner hold
        · obtain ⟨rfl, rfl⟩ := Prod.mk.inj hnew
          exact .inl hmatched
        · obtain ⟨rfl, rfl⟩ := Prod.mk.inj hnew
          exact .inr hmatched
      change (joinAll (join partners opener closer) loops)[position]? = _ ↔ _
      rw [ih ((size_join partners opener closer).trans hsize) hjoined
        fun opener closer hmem => hloops opener closer (List.mem_cons_of_mem _ hmem),
        hjoin, List.mem_cons, List.mem_cons]
      tauto

/-- Joining the ends of all loops of a code in a blank table records them. -/
theorem recorded_joinAll {code : List UInt8} {loops : List (Nat × Nat)}
    (hloops : ∀ opener closer, (opener, closer) ∈ loops ↔ Matched code opener closer) :
    Recorded code 0 (joinAll (Array.replicate code.length none) loops) where
  size_eq := by rw [size_joinAll, Array.size_replicate, Nat.add_zero]
  entry_iff position partner := by
    have hblank : ∀ position partner : Nat,
        (Array.replicate code.length none)[position]? ≠ some (some partner) := by
      intro position partner
      simp [Array.getElem?_replicate]
    rw [joinAll_entry_iff Array.size_replicate
      (fun position partner hentry => absurd hentry (hblank position partner))
      (fun opener closer => (hloops opener closer).mp), hloops, hloops]
    exact or_iff_right (hblank position partner)

/-- A code has one jump table. -/
theorem IsJumpTable.unique {code : List UInt8} {jumps others : Array (Option Int)}
    (hjumps : IsJumpTable code jumps) (hothers : IsJumpTable code others) : jumps = others := by
  apply Array.ext (hjumps.size_eq.trans hothers.size_eq.symm)
  intro position hlt hother
  apply Option.ext
  intro target
  have hiff := (hjumps.entry_iff position target).trans (hothers.entry_iff position target).symm
  rwa [Array.getElem?_eq_getElem hlt, Array.getElem?_eq_getElem hother, Option.some.injEq,
    Option.some.injEq] at hiff

/-! ## Every bracket is an end of a loop -/

/-- The brackets of a balanced program are the positions with a partner. -/
theorem mem_findIdxs_isBracket_iff {code : List UInt8} (hcode : Balanced code) {position : Nat} :
    position ∈ code.findIdxs isBracket ↔ ∃ partner, Partnered code position partner := by
  rw [List.mem_findIdxs_iff_exists_getElem_pos]
  constructor
  · rintro ⟨hlt, hbracket⟩
    exact exists_partnered_of_balanced hcode (List.getElem?_eq_getElem hlt) hbracket
  · rintro ⟨partner, hpartnered⟩
    have hlt := hpartnered.lt_length
    exact ⟨hlt, hpartnered.isBracket_eq_true (List.getElem?_eq_getElem hlt)⟩

/-- The loops of a code, in the order in which they start. -/
structure IsLoopList (code : List UInt8) (loops : List (Nat × Nat)) : Prop where
  mem_iff : ∀ opener closer, (opener, closer) ∈ loops ↔ Matched code opener closer
  increasing : loops.Pairwise fun first second => first.1 < second.1

namespace IsLoopList

variable {code : List UInt8} {loops : List (Nat × Nat)}

/-- No bracket is an end of two loops. -/
theorem nodup_ends (hlist : IsLoopList code loops) :
    (loops.flatMap fun loop => [loop.1, loop.2]).Nodup := by
  rw [List.nodup_flatMap]
  constructor
  · rintro ⟨opener, closer⟩ hmem
    simp [((hlist.mem_iff _ _).mp hmem).lt.ne]
  · refine hlist.increasing.imp_of_mem ?_
    rintro ⟨opener, closer⟩ ⟨later, laterCloser⟩ hfirst hsecond hlt
    have hmatched := (hlist.mem_iff _ _).mp hfirst
    have hlater := (hlist.mem_iff _ _).mp hsecond
    have hcross := hmatched.lt_or_lt hlater hlt
    have := hmatched.lt
    have := hlater.lt
    simp only [Function.onFun, List.disjoint_left, List.mem_pair]
    rintro position (rfl | rfl) <;> omega

/-- In a balanced program every bracket is an end of one loop. -/
theorem perm_ends (hlist : IsLoopList code loops) (hcode : Balanced code) :
    (loops.flatMap fun loop => [loop.1, loop.2]).Perm (code.findIdxs isBracket) := by
  rw [List.perm_ext_iff_of_nodup hlist.nodup_ends List.nodup_findIdxs]
  intro position
  rw [mem_ends_iff hlist.mem_iff, mem_findIdxs_isBracket_iff hcode]

/-- In a balanced program every opener starts a loop. -/
theorem map_fst_eq (hlist : IsLoopList code loops) (hcode : Balanced code) :
    loops.map Prod.fst = code.findIdxs (· = Instruction.loopStart.byte) := by
  refine List.Pairwise.eq_of_mem_iff (List.pairwise_map.mpr hlist.increasing)
    List.pairwise_findIdxs fun opener => ?_
  rw [List.mem_findIdxs_iff_exists_getElem_pos, List.mem_map]
  constructor
  · rintro ⟨⟨opener, closer⟩, hmem, rfl⟩
    have hopens := ((hlist.mem_iff _ _).mp hmem).opens
    obtain ⟨hlt, hbyte⟩ := List.getElem?_eq_some_iff.mp hopens
    exact ⟨hlt, decide_eq_true hbyte⟩
  · rintro ⟨hlt, hbyte⟩
    have hopens : code[opener]? = some Instruction.loopStart.byte :=
      List.getElem?_eq_some_iff.mpr ⟨hlt, of_decide_eq_true hbyte⟩
    obtain ⟨closer, hpartnered⟩ := exists_partnered_of_balanced hcode hopens rfl
    exact ⟨(opener, closer), (hlist.mem_iff _ _).mpr (hpartnered.matched_of_opens hopens), rfl⟩

end IsLoopList

/-- A jump table has a target for every bracket and for no other byte. -/
theorem IsJumpTable.map_isSome_eq {code : List UInt8} {jumps : Array (Option Int)}
    (hjumps : IsJumpTable code jumps) (hcode : Balanced code) :
    jumps.toList.map Option.isSome = code.map isBracket := by
  apply List.ext_getElem?
  intro position
  rw [List.getElem?_map, List.getElem?_map, Array.getElem?_toList]
  cases hbyte : code[position]? with
  | none =>
      have hlength := List.getElem?_eq_none_iff.mp hbyte
      rw [Array.getElem?_eq_none (hjumps.size_eq ▸ hlength)]
      rfl
  | some byte =>
      have hlt := (List.getElem?_eq_some_iff.mp hbyte).choose
      have hentry := Array.getElem?_eq_getElem (hjumps.size_eq ▸ hlt)
      have hnone := hjumps.entry_eq_none_iff hcode hbyte
      rw [hentry, Option.some.injEq] at hnone
      rw [hentry, Option.map_some, Option.map_some, Option.some.injEq, Bool.eq_iff_iff,
        Option.isSome_iff_ne_none, Ne, hnone, Bool.not_eq_false]

/-- A jump table has two targets for every loop. -/
theorem IsJumpTable.countP_isSome_eq {code : List UInt8} {jumps : Array (Option Int)}
    (hjumps : IsJumpTable code jumps) (hcode : Balanced code) {loops : List (Nat × Nat)}
    (hlist : IsLoopList code loops) : jumps.countP Option.isSome = loops.length * 2 := by
  calc jumps.countP Option.isSome
    _ = (jumps.toList.map Option.isSome).countP id := by
        rw [List.countP_map, ← Array.countP_toList]
        rfl
    _ = code.countP isBracket := by
        rw [hjumps.map_isSome_eq hcode, List.countP_map]
        rfl
    _ = (loops.flatMap fun loop => [loop.1, loop.2]).length := by
        rw [(hlist.perm_ends hcode).length_eq, List.length_findIdxs]
    _ = loops.length * 2 := by simp [List.length_flatMap]

end Brackets

namespace Program

open Brackets

/-- Collecting succeeds if every item can be looked at, and then as if nothing could fail. -/
theorem filterMapM_eq_ok_iff {ε α β : Type} {find : α → Except ε (Option β)} {items : List α}
    {found : List β} : items.filterMapM find = .ok found ↔
      (∀ item ∈ items, ∃ result, find item = .ok result) ∧
        items.filterMap (fun item => (find item).toOption.join) = found := by
  induction items generalizing found with
  | nil => simp [pure, Except.pure]
  | cons item items ih =>
      rw [List.filterMapM_cons, List.forall_mem_cons, List.filterMap_cons]
      cases hitem : find item with
      | error error => simp [bind, Except.bind]
      | ok result =>
          have hresult : ∃ other, Except.ok result = (Except.ok other : Except ε (Option β)) :=
            ⟨result, rfl⟩
          cases result with
          | none => exact ih.trans (and_congr_left' (and_iff_right hresult).symm)
          | some first =>
              cases hrest : items.filterMapM find with
              | error error =>
                  have hfails : ¬ ∀ item ∈ items, ∃ result, find item = .ok result := by
                    intro hall
                    have hok := ih.mpr ⟨hall, rfl⟩
                    rw [hrest] at hok
                    contradiction
                  simp [bind, Except.bind, hfails]
              | ok rest =>
                  obtain ⟨hall, hcollected⟩ := ih.mp hrest
                  rw [and_iff_right ⟨hresult, hall⟩, hcollected]
                  simp [bind, Except.bind, pure, Except.pure, Except.toOption]

theorem join_toOption_eq_some_iff {ε β : Type} {outcome : Except ε (Option β)} {value : β} :
    outcome.toOption.join = some value ↔ outcome = .ok (some value) := by
  cases outcome with
  | error error => simp [Except.toOption]
  | ok result => simp [Except.toOption]

theorem pairFrom_eq_some_iff {program : Program} {position : Nat} {pair : Nat × Int} :
    program.pairFrom position = .ok (some pair) ↔
      pair.1 = position ∧ program.jumps[position]? = some (some pair.2) ∧
        program.code[position]? = some Instruction.loopStart.byte := by
  obtain ⟨opener, closer⟩ := pair
  rw [pairFrom, ← fetch_ofNat_eq_ok_iff]
  split
  next destination hjump =>
    rw [hjump]
    cases program.fetch position with
    | error error => simp
    | ok byte =>
        simp only [Instruction.ofByte?_eq_some_iff, Except.ok.injEq]
        by_cases hopens : byte = Instruction.loopStart.byte
        · simp [hopens, eq_comm]
        · simp [hopens]
  next hnone =>
    constructor
    · intro hfound
      cases hfound
    · rintro ⟨-, hjump, -⟩
      exact absurd hjump (hnone _)

theorem exists_pairFrom_iff {program : Program} {position : Nat} :
    (∃ found, program.pairFrom position = .ok found) ↔ ∀ destination,
      program.jumps[position]? = some (some destination) → position < program.code.size := by
  rw [pairFrom]
  split
  next destination hjump =>
    have hwithin : position < program.code.size ↔ ∃ byte, program.fetch position = .ok byte := by
      simp [fetch_ofNat_eq_ok_iff, Array.getElem?_eq_some_iff]
    rw [hwithin]
    cases program.fetch position with
    | error error => simp [hjump]
    | ok byte =>
      refine iff_of_true ?_ fun _ _ => ⟨byte, rfl⟩
      dsimp only
      split
      · exact ⟨_, rfl⟩
      · exact ⟨_, rfl⟩
  next hnone => exact iff_of_true ⟨none, rfl⟩ fun destination hjump => absurd hjump (hnone _)

/-- The pairs of a program can be told if and only if its table has no target behind the code. -/
theorem exists_pairs_iff {program : Program} :
    (∃ pairs, program.pairs = .ok pairs) ↔ ∀ (position : Nat) (destination : Int),
      program.jumps[position]? = some (some destination) → position < program.code.size := by
  simp only [pairs, filterMapM_eq_ok_iff, exists_and_left, exists_eq', and_true, List.mem_range,
    exists_pairFrom_iff]
  constructor
  · intro hwithin position destination hjump
    exact hwithin position (Array.getElem?_eq_some_iff.mp hjump).choose destination hjump
  · intro hwithin position _ destination hjump
    exact hwithin position destination hjump

section

variable {program : Program} {pairs : List (Nat × Int)}

/-- The pairs of any program stand in the order of their openers. -/
theorem pairwise_pairs (hpairs : program.pairs = .ok pairs) :
    pairs.Pairwise fun first second => first.1 < second.1 := by
  obtain ⟨-, rfl⟩ := filterMapM_eq_ok_iff.mp hpairs
  rw [List.pairwise_filterMap]
  refine List.pairwise_lt_range.imp ?_
  intro position later hlt first hfirst second hsecond
  rw [join_toOption_eq_some_iff, pairFrom_eq_some_iff] at hfirst hsecond
  rwa [hfirst.1, hsecond.1]

theorem mem_pairs_iff (hpairs : program.pairs = .ok pairs) {opener : Nat} {closer : Int} :
    (opener, closer) ∈ pairs ↔ program.jumps[opener]? = some (some closer) ∧
      program.code[opener]? = some Instruction.loopStart.byte := by
  obtain ⟨-, rfl⟩ := filterMapM_eq_ok_iff.mp hpairs
  simp only [List.mem_filterMap, join_toOption_eq_some_iff, pairFrom_eq_some_iff]
  constructor
  · rintro ⟨position, -, rfl, hjump, hbyte⟩
    exact ⟨hjump, hbyte⟩
  · rintro ⟨hjump, hbyte⟩
    have hlt := (Array.getElem?_eq_some_iff.mp hjump).choose
    exact ⟨opener, List.mem_range.mpr hlt, rfl, hjump, hbyte⟩

namespace Loaded

theorem exists_pairs (hloaded : program.Loaded) : ∃ pairs, program.pairs = .ok pairs := by
  refine exists_pairs_iff.mpr fun position destination hjump => ?_
  have hlt := (Array.getElem?_eq_some_iff.mp hjump).choose
  rwa [hloaded.jumps.size_eq, Array.length_toList] at hlt

theorem mem_pairs_iff (hloaded : program.Loaded) (hpairs : program.pairs = .ok pairs)
    {opener : Nat} {closer : Int} : (opener, closer) ∈ pairs ↔
      ∃ partner : Nat, closer = partner ∧ Matched program.code.toList opener partner := by
  rw [Program.mem_pairs_iff hpairs, hloaded.jumps.entry_iff, ← Array.getElem?_toList]
  constructor
  · rintro ⟨⟨partner, rfl, hpartnered⟩, hopens⟩
    exact ⟨partner, rfl, hpartnered.matched_of_opens hopens⟩
  · rintro ⟨partner, rfl, hmatched⟩
    exact ⟨⟨partner, rfl, .inl hmatched⟩, hmatched.opens⟩

/-- The pairs of a loaded program are its loops. -/
theorem exists_loops (hloaded : program.Loaded) (hpairs : program.pairs = .ok pairs) :
    ∃ loops, IsLoopList program.code.toList loops ∧
      pairs = loops.map (Prod.map id Int.ofNat) := by
  refine ⟨pairs.map (Prod.map id Int.toNat), ⟨?_, ?_⟩, ?_⟩
  · intro opener closer
    rw [List.mem_map]
    constructor
    · rintro ⟨⟨first, second⟩, hmem, hpair⟩
      obtain ⟨partner, rfl, hmatched⟩ := (hloaded.mem_pairs_iff hpairs).mp hmem
      obtain ⟨rfl, rfl⟩ := Prod.mk.inj hpair
      exact hmatched
    · intro hmatched
      exact ⟨(opener, closer), (hloaded.mem_pairs_iff hpairs).mpr ⟨closer, rfl, hmatched⟩, rfl⟩
  · exact List.pairwise_map.mpr (pairwise_pairs hpairs)
  · rw [List.map_map]
    refine ((List.map_congr_left ?_).trans (List.map_id _)).symm
    rintro ⟨opener, closer⟩ hmem
    obtain ⟨partner, rfl, -⟩ := (hloaded.mem_pairs_iff hpairs).mp hmem
    rfl

end Loaded

end

/-- The pairs of a loaded program can be told: they are its opening brackets in increasing order,
each with its target. Every bracket is an end of one pair, any two pairs are apart or nested, there
are as many pairs as opening brackets and as the event of loading says, and they determine the jump
table. -/
theorem pairs_are_loops_and_determine_jumps {source : Source} {encoding : Encoding}
    {program : Program} (hload : load source encoding = .ok program) :
    ∃ pairs, program.pairs = .ok pairs ∧
      (pairs.map Prod.fst).Pairwise (· < ·) ∧
      pairs.map Prod.fst = program.code.toList.findIdxs (· = Instruction.loopStart.byte) ∧
      (∀ pair ∈ pairs, program.target pair.1 = .ok pair.2) ∧
      (pairs.flatMap fun pair => [(pair.1 : Int), pair.2]).Perm
        ((program.code.toList.findIdxs isBracket).map Int.ofNat) ∧
      (∀ pair ∈ pairs, pair.1 < pair.2) ∧
      (∀ first ∈ pairs, ∀ second ∈ pairs, first ≠ second →
        Apart first second ∨ Nested first second) ∧
      pairs.length = program.code.count Instruction.loopStart.byte ∧
      Event.ofProgram program = .loaded program.code.size pairs.length ∧
      program.jumps = tableOfPairs program.code.size pairs := by
  obtain ⟨hloaded, -⟩ := loaded_of_load hload
  obtain ⟨pairs, hpairs⟩ := hloaded.exists_pairs
  obtain ⟨loops, hlist, hloops⟩ := hloaded.exists_loops hpairs
  have hopeners : pairs.map Prod.fst =
      program.code.toList.findIdxs (· = Instruction.loopStart.byte) := by
    rw [hloops, List.map_map]
    exact hlist.map_fst_eq hloaded.balanced
  have hlength : pairs.length = loops.length := by rw [hloops, List.length_map]
  refine ⟨pairs, hpairs, List.pairwise_map.mpr (pairwise_pairs hpairs), hopeners,
    ?_, ?_, ?_, ?_, ?_, ?_, ?_⟩
  · rintro ⟨opener, closer⟩ hmem
    exact program.target_of_entry_some ((mem_pairs_iff hpairs).mp hmem).1
  · rw [hloops, List.flatMap_map]
    have hperm := (hlist.perm_ends hloaded.balanced).map Int.ofNat
    rwa [List.map_flatMap] at hperm
  · rintro ⟨opener, closer⟩ hmem
    obtain ⟨partner, rfl, hmatched⟩ := (hloaded.mem_pairs_iff hpairs).mp hmem
    exact Int.ofNat_lt.mpr hmatched.lt
  · rintro ⟨opener, closer⟩ hfirst ⟨other, otherCloser⟩ hsecond hne
    obtain ⟨partner, rfl, hmatched⟩ := (hloaded.mem_pairs_iff hpairs).mp hfirst
    obtain ⟨otherPartner, rfl, hother⟩ := (hloaded.mem_pairs_iff hpairs).mp hsecond
    refine hmatched.apart_or_nested hother ?_
    rintro rfl
    exact hne (by rw [hmatched.closer_unique hother])
  · have hcount := congrArg List.length hopeners
    rw [List.length_map, List.length_findIdxs, Array.countP_toList] at hcount
    exact hcount
  · rw [Event.ofProgram, pairCount, hloaded.jumps.countP_isSome_eq hloaded.balanced hlist,
      Nat.mul_div_cancel _ (by omega), hlength]
  · have hback : (loops.map (Prod.map id Int.ofNat)).map (Prod.map id Int.toNat) = loops := by
      rw [List.map_map]
      exact List.map_id loops
    rw [hloops, tableOfPairs, hback, ← Array.length_toList]
    exact hloaded.jumps.unique (recorded_joinAll hlist.mem_iff).isJumpTable

/-- Two nested loops and an empty one, with bytes that are no brackets between them. -/
theorem pairs_are_loops_and_determine_jumps_of_nested :
    load (.bytes [0x2B, 0x5B, 0x5B, 0x2D, 0x5D, 0x5D, 0x5B, 0x5D]) .utf8 =
        .ok ⟨#[0x2B, 0x5B, 0x5B, 0x2D, 0x5D, 0x5D, 0x5B, 0x5D],
          #[none, some 5, some 4, none, some 2, some 1, some 7, some 6]⟩ ∧
      pairs ⟨#[0x2B, 0x5B, 0x5B, 0x2D, 0x5D, 0x5D, 0x5B, 0x5D],
          #[none, some 5, some 4, none, some 2, some 1, some 7, some 6]⟩ =
        .ok [(1, 5), (2, 4), (6, 7)] ∧
      (Nested (1, 5) (2, 4) ∧ Apart (2, 4) (6, 7)) ∧
      #[none, some 5, some 4, none, some 2, some 1, some 7, some 6] =
        tableOfPairs 8 [(1, 5), (2, 4), (6, 7)] := by
  have hload : load (.bytes [0x2B, 0x5B, 0x5B, 0x2D, 0x5D, 0x5D, 0x5B, 0x5D]) .utf8 =
      .ok ⟨#[0x2B, 0x5B, 0x5B, 0x2D, 0x5D, 0x5D, 0x5B, 0x5D],
        #[none, some 5, some 4, none, some 2, some 1, some 7, some 6]⟩ := by decide +kernel
  have hfound : pairs ⟨#[0x2B, 0x5B, 0x5B, 0x2D, 0x5D, 0x5D, 0x5B, 0x5D],
      #[none, some 5, some 4, none, some 2, some 1, some 7, some 6]⟩ =
        .ok [(1, 5), (2, 4), (6, 7)] := by decide +kernel
  obtain ⟨pairs, hpairs, -, -, -, -, -, -, -, -, hjumps⟩ :=
    pairs_are_loops_and_determine_jumps hload
  obtain rfl := Except.ok.inj (hfound.symm.trans hpairs)
  refine ⟨hload, hfound, ⟨.inl ⟨?_, ?_⟩, .inl ?_⟩, hjumps⟩ <;> decide

end Program

end TapeMachine
