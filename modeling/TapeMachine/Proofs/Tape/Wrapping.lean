/-
# Wrapping tapes

A tape that wraps at both ends of its width is the image of a tape of integers: the same moves are
made on both, and every cell of the one is the remainder of the cell of the other. Reducing commutes
with every move, so it does not matter whether each value is reduced when it is stored or all of
them once at the end. A move is refused only at the two ends of the row, which the integer tape has
in the same places.

A value is reduced by masking its bits. For a negative integer these are the bits of its two's
complement, and the mask leaves the remainder here as well.
-/

import Mathlib.Data.Int.Bitwise
import TapeMachine.Proofs.Tape.Sound
import TapeMachine.Tape.Command
import TapeMachine.Tape.Unbounded

namespace TapeMachine

/-- The low bits of the complement of a number are the complements of its low bits. -/
theorem ldiff_two_pow_sub_one (bits value : Nat) :
    Nat.ldiff (2 ^ bits - 1) value = 2 ^ bits - (value % 2 ^ bits + 1) := by
  have hlt : value % 2 ^ bits < 2 ^ bits := Nat.mod_lt _ (Nat.two_pow_pos bits)
  apply Nat.eq_of_testBit_eq
  intro index
  rw [Nat.testBit_ldiff, Nat.testBit_two_pow_sub_one, Nat.testBit_two_pow_sub_succ hlt,
    Nat.testBit_mod_two_pow]
  cases decide (index < bits) <;> rfl

/-- A mask of so many bits leaves the remainder, of a negative integer too. -/
theorem land_two_pow_sub_one (value : Int) (bits : Nat) :
    Int.land value (2 ^ bits - 1) = value % 2 ^ bits := by
  have hmask : (2 ^ bits - 1 : Int) = ((2 ^ bits - 1 : Nat) : Int) := by
    rw [Int.natCast_sub (Nat.two_pow_pos bits)]
    norm_cast
  rw [hmask]
  cases value with
  | ofNat value =>
      change ((value &&& (2 ^ bits - 1) : Nat) : Int) = (value : Int) % 2 ^ bits
      rw [Nat.and_two_pow_sub_one_eq_mod]
      norm_cast
  | negSucc value =>
      change ((Nat.ldiff (2 ^ bits - 1) value : Nat) : Int) = _
      have hlt : value % 2 ^ bits < 2 ^ bits := Nat.mod_lt _ (Nat.two_pow_pos bits)
      have hpos : (0 : Int) < 2 ^ bits := Int.pow_pos (by decide)
      rw [ldiff_two_pow_sub_one, Int.negSucc_emod _ hpos, Int.natCast_sub hlt]
      push_cast
      rw [Int.sub_sub, Int.add_comm]

namespace Width

theorem count_eq_two_pow (width : Width) : width.count = 2 ^ width.bits := by
  cases width <;> rfl

theorem natCast_wrap (width : Width) (value : Int) :
    ((width.wrap value : Nat) : Int) = value % 2 ^ width.bits := by
  have hpos : (0 : Int) < 2 ^ width.bits := Int.pow_pos (by decide)
  rw [wrap, count_eq_two_pow]
  push_cast
  exact Int.toNat_of_nonneg (Int.emod_nonneg _ (Int.ne_of_gt hpos))

theorem wrap_zero (width : Width) : width.wrap 0 = 0 := by
  cases width <;> rfl

/-- What is added to a reduced value might as well be added before. -/
theorem wrap_wrap_add (width : Width) (value more : Int) :
    width.wrap ((width.wrap value : Nat) + more) = width.wrap (value + more) := by
  apply Int.ofNat.inj
  change ((width.wrap ((width.wrap value : Nat) + more) : Nat) : Int) =
    (width.wrap (value + more) : Nat)
  rw [natCast_wrap, natCast_wrap, natCast_wrap, Int.emod_add_emod]

end Width

namespace Tape

variable {config : Config} {tape : Tape}

/-- Where a full cell wraps, adding one is storing the sum. -/
theorem Sound.increment_eq_put (hsound : tape.Sound config) (hoverflow : config.overflow = .wrap) :
    tape.increment config = .done () (tape.put (config.width.wrap (tape.current + 1))) := by
  rw [increment, hsound.read_eq]
  simp only [hoverflow, reduceCtorEq, and_false, if_false]
  exact hsound.write_eq _ _

/-- Where a zero cell wraps, taking one is storing the difference. -/
theorem Sound.decrement_eq_put (hsound : tape.Sound config)
    (hunderflow : config.underflow = .wrap) :
    tape.decrement config = .done () (tape.put (config.width.wrap (tape.current - 1))) := by
  rw [decrement, hsound.read_eq]
  simp only [hunderflow, reduceCtorEq, and_false, if_false]
  exact hsound.write_eq _ _

/-- The tape behind a sequence of commands. A command that is refused leaves its tape behind, and
the next one is given to that. -/
def performAll (config : Config) (commands : List Command) (tape : Tape) : Tape :=
  commands.foldl (fun tape command => (tape.perform config command).state) tape

end Tape

namespace IntegerTape

/-- What a move does to a tape of some width. -/
def Move.apply (config : Config) : Move → Tape → Attempt TapeError Tape Unit
  | .right => Tape.right
  | .left => Tape.left
  | .increment => Tape.increment config
  | .decrement => Tape.decrement config
  | .write value => Tape.write config.width value

/-- The command that makes a move. -/
def Move.command : Move → Tape.Command
  | .right => .right
  | .left => .left
  | .increment => .increment
  | .decrement => .decrement
  | .write value => .write value

theorem perform_command (config : Config) (move : Move) (tape : Tape) :
    tape.perform config move.command = Tape.silently (move.apply config tape) := by
  cases move <;> rfl

/-- The integer tape behind a sequence of moves. A move that would leave the cells is left out. -/
def moveAll (moves : List Move) (tape : IntegerTape) : IntegerTape :=
  moves.foldl (fun tape move => (tape.move? move).getD tape) tape

/-- The value of the cell at the head. -/
def current (tape : IntegerTape) : Int := tape.cells[tape.head]?.getD 0

/-- What cells of some width keep of the integers: all of them are reduced at once. -/
def reduce (width : Width) (tape : IntegerTape) : Tape where
  cells := (tape.cells.map width.wrap).toArray
  head := tape.head

/-- An integer tape of so many cells, with its head at one of them. -/
structure Within (size : Nat) (tape : IntegerTape) : Prop where
  length_eq : tape.cells.length = size
  head_lt : tape.head < size

variable {tape : IntegerTape} {size : Nat} {config : Config}

theorem change_within (hwithin : tape.Within size) (update : Int → Int) :
    (tape.change update).Within size where
  length_eq := by
    rw [change, List.length_modify]
    exact hwithin.length_eq
  head_lt := hwithin.head_lt

theorem reduce_sound (hwithin : tape.Within config.tapeSize) :
    (tape.reduce config.width).Sound config where
  size_eq := by simpa [reduce] using hwithin.length_eq
  head_nonneg := Int.natCast_nonneg _
  head_lt := Int.ofNat_lt.mpr hwithin.head_lt
  cell_le cell hcell := by
    obtain ⟨integer, -, rfl⟩ : ∃ integer ∈ tape.cells, config.width.wrap integer = cell := by
      simpa [reduce] using hcell
    exact config.width.wrap_le_largest integer

theorem current_reduce (width : Width) (tape : IntegerTape) :
    (tape.reduce width).current = width.wrap tape.current := by
  have hcells : (tape.reduce width).cells[tape.head]? = tape.cells[tape.head]?.map width.wrap := by
    simp [reduce]
  rw [Tape.current, current]
  change (tape.reduce width).cells[tape.head]?.getD 0 = _
  rw [hcells]
  cases tape.cells[tape.head]? with
  | none => exact width.wrap_zero.symm
  | some integer => rfl

/-- An integer that fits a cell is in it as it is. -/
theorem current_reduce_of_le {width : Width} {value : Nat} (hcurrent : tape.current = value)
    (hle : value ≤ width.largest) : (tape.reduce width).current = value := by
  rw [current_reduce, hcurrent]
  exact Width.wrap_of_le_largest hle

/-- Reducing a changed tape is storing the reduced value. -/
theorem reduce_change (width : Width) (update : Int → Int) (tape : IntegerTape) :
    (tape.change update).reduce width =
      (tape.reduce width).put (width.wrap (update tape.current)) := by
  have hcells : (tape.cells.modify tape.head update).map width.wrap =
      (tape.cells.map width.wrap).set tape.head (width.wrap (update tape.current)) := by
    apply List.ext_getElem?
    intro index
    rw [List.getElem?_map, List.getElem?_modify, List.getElem?_set, List.getElem?_map,
      List.length_map]
    by_cases hindex : tape.head = index
    · subst hindex
      by_cases hlt : tape.head < tape.cells.length
      · simp [current, hlt]
      · simp [hlt]
    · cases tape.cells[index]? <;> simp [hindex]
  rw [reduce, change, hcells, Tape.put, reduce]
  simp

theorem reduce_blank (width : Width) (size : Nat) :
    (blank size).reduce width = Tape.blank size := by
  rw [reduce, blank, Tape.blank, List.map_replicate, width.wrap_zero, List.toArray_replicate]
  rfl

theorem blank_within (hpos : 0 < size) : (blank size).Within size where
  length_eq := List.length_replicate
  head_lt := hpos

/-- What becomes of a tape is what becomes of the integers that it is reduced from. It is refused
a move only because the head has nowhere to go. -/
inductive Reduces (config : Config) (tape : Tape) :
    Move → Attempt TapeError Tape Unit → Option IntegerTape → Prop
  | done {move : Move} {next : IntegerTape} (hwithin : next.Within config.tapeSize) :
      Reduces config tape move (.done () (next.reduce config.width)) (some next)
  | pastLast {fault : Fault} (hkind : fault.kind = .headOverflow) :
      Reduces config tape .right (.refused (.fault fault) tape) none
  | belowFirst {fault : Fault} (hkind : fault.kind = .headUnderflow) :
      Reduces config tape .left (.refused (.fault fault) tape) none

theorem right_reduces (hwithin : tape.Within config.tapeSize) :
    Reduces config (tape.reduce config.width) .right (tape.reduce config.width).right
      (tape.move? .right) := by
  have hlength := hwithin.length_eq
  rw [(reduce_sound hwithin).right_eq, move?]
  by_cases hroom : tape.head + 1 < config.tapeSize
  · rw [if_pos (by simp only [reduce]; omega), if_pos (by omega)]
    have hnext : ({ tape with head := tape.head + 1 } : IntegerTape).Within config.tapeSize :=
      ⟨hlength, hroom⟩
    exact .done hnext
  · rw [if_neg (by simp only [reduce]; omega), if_neg (by omega)]
    exact .pastLast rfl

theorem left_reduces (hwithin : tape.Within config.tapeSize) :
    Reduces config (tape.reduce config.width) .left (tape.reduce config.width).left
      (tape.move? .left) := by
  have hhead := hwithin.head_lt
  rw [(reduce_sound hwithin).left_eq, move?]
  cases hfirst : tape.head with
  | zero =>
      rw [if_pos (by simp [reduce, hfirst])]
      exact .belowFirst rfl
  | succ head =>
      have hback : (tape.reduce config.width).withHead ((tape.reduce config.width).head - 1) =
          ({ tape with head } : IntegerTape).reduce config.width := by
        simp [Tape.withHead, reduce, hfirst]
      rw [if_neg (by simp only [reduce]; omega), hback]
      exact .done ⟨hwithin.length_eq, by simp only; omega⟩

/-- Storing what a change makes of the reduced value is reducing the changed tape. -/
theorem put_reduces (hwithin : tape.Within config.tapeSize) (move : Move) {stored : Nat}
    {update : Int → Int} (hstored : stored = config.width.wrap (update tape.current)) :
    Reduces config (tape.reduce config.width) move
      (.done () ((tape.reduce config.width).put stored)) (some (tape.change update)) := by
  rw [hstored, ← reduce_change]
  exact .done (change_within hwithin update)

/-- Reducing commutes with every move of a tape that wraps. -/
theorem apply_reduces (hoverflow : config.overflow = .wrap) (hunderflow : config.underflow = .wrap)
    (hwithin : tape.Within config.tapeSize) (move : Move) :
    Reduces config (tape.reduce config.width) move (move.apply config (tape.reduce config.width))
      (tape.move? move) := by
  have hsound := reduce_sound hwithin
  cases move with
  | right => exact right_reduces hwithin
  | left => exact left_reduces hwithin
  | increment =>
      rw [Move.apply, hsound.increment_eq_put hoverflow, current_reduce]
      exact put_reduces hwithin .increment (config.width.wrap_wrap_add _ 1)
  | decrement =>
      rw [Move.apply, hsound.decrement_eq_put hunderflow, current_reduce]
      refine put_reduces hwithin .decrement ?_
      rw [Int.sub_eq_add_neg, Int.sub_eq_add_neg, config.width.wrap_wrap_add]
  | write value =>
      rw [Move.apply, hsound.write_eq]
      exact put_reduces hwithin (.write value) rfl

/-- A move that the integer tape makes is made. -/
theorem perform_of_move?_eq_some (hoverflow : config.overflow = .wrap)
    (hunderflow : config.underflow = .wrap) (hwithin : tape.Within config.tapeSize) {move : Move}
    {next : IntegerTape} (hmove : tape.move? move = some next) :
    (tape.reduce config.width).perform config move.command =
      .done .nothing (next.reduce config.width) := by
  have hreduces := apply_reduces hoverflow hunderflow hwithin move
  rw [hmove] at hreduces
  rw [perform_command]
  generalize move.apply config (tape.reduce config.width) = attempt at hreduces
  cases hreduces with
  | done _ => rfl

/-- A move that the integer tape does not make is refused, and no other is. -/
theorem move?_eq_none_iff (hoverflow : config.overflow = .wrap)
    (hunderflow : config.underflow = .wrap) (hwithin : tape.Within config.tapeSize) (move : Move) :
    tape.move? move = none ↔
      ∃ fault, (tape.reduce config.width).perform config move.command =
          .refused (.tape (.fault fault)) (tape.reduce config.width) ∧
        (move = .right ∧ fault.kind = .headOverflow ∨
          move = .left ∧ fault.kind = .headUnderflow) := by
  have hreduces := apply_reduces hoverflow hunderflow hwithin move
  rw [perform_command]
  generalize move.apply config (tape.reduce config.width) = attempt at hreduces
  generalize tape.move? move = moved at hreduces
  cases hreduces with
  | done _ =>
      constructor
      · intro hnone
        contradiction
      · rintro ⟨fault, hrefused, -⟩
        contradiction
  | pastLast hkind => exact ⟨fun _ => ⟨_, rfl, .inl ⟨rfl, hkind⟩⟩, fun _ => rfl⟩
  | belowFirst hkind => exact ⟨fun _ => ⟨_, rfl, .inr ⟨rfl, hkind⟩⟩, fun _ => rfl⟩

/-- One move leads from reduced integers to reduced integers, also where it is refused. -/
theorem perform_reduce (hoverflow : config.overflow = .wrap)
    (hunderflow : config.underflow = .wrap) (hwithin : tape.Within config.tapeSize) (move : Move) :
    ((tape.reduce config.width).perform config move.command).state =
        ((tape.move? move).getD tape).reduce config.width ∧
      ((tape.move? move).getD tape).Within config.tapeSize := by
  have hreduces := apply_reduces hoverflow hunderflow hwithin move
  rw [perform_command]
  generalize move.apply config (tape.reduce config.width) = attempt at hreduces
  generalize tape.move? move = moved at hreduces
  cases hreduces with
  | done hnext => exact ⟨rfl, hnext⟩
  | pastLast | belowFirst => exact ⟨rfl, hwithin⟩

/-- Any number of moves lead from reduced integers to reduced integers. -/
theorem performAll_reduce (hoverflow : config.overflow = .wrap)
    (hunderflow : config.underflow = .wrap) (hwithin : tape.Within config.tapeSize)
    (moves : List Move) :
    (tape.reduce config.width).performAll config (moves.map Move.command) =
        (tape.moveAll moves).reduce config.width ∧
      (tape.moveAll moves).Within config.tapeSize := by
  induction moves generalizing tape with
  | nil => exact ⟨rfl, hwithin⟩
  | cons move moves ih =>
      obtain ⟨hstate, hnext⟩ := perform_reduce hoverflow hunderflow hwithin move
      rw [List.map_cons, Tape.performAll, List.foldl_cons, hstate]
      exact ih hnext

end IntegerTape

/-- A command stores a value in the current cell, cut down by the mask of the width, and it fits. -/
def Tape.StoresMasked (config : Config) (tape : Tape) (command : Command) (value : Int) : Prop :=
  ∃ stored : Nat, (stored : Int) = Int.land value (2 ^ config.width.bits - 1) ∧
    stored ≤ 2 ^ config.width.bits - 1 ∧
    tape.perform config command = .done .nothing (tape.put stored)

theorem Tape.storesMasked_of_eq_put {config : Config} {tape : Tape} {command : Command}
    {value : Int} (hperform : tape.perform config command =
      .done .nothing (tape.put (config.width.wrap value))) :
    tape.StoresMasked config command value := by
  refine ⟨_, ?_, ?_, hperform⟩
  · rw [land_two_pow_sub_one, config.width.natCast_wrap]
  · rw [← config.width.largest_eq_two_pow_sub_one]
    exact config.width.wrap_le_largest value

namespace IntegerTape

/-- A new tape that wraps follows a new integer tape through any sequence of moves, and a move that
has no effect on the one is refused by the other. Behind it the two heads are at the same cell,
every cell is the integer cell reduced once, and the next move is refused if and only if it would
take the head of the integer tape off its cells. Whatever is stored is masked, and fits. -/
theorem wrapping_tape_reduces_integer_tape {config : Config} (hoverflow : config.overflow = .wrap)
    (hunderflow : config.underflow = .wrap) (moves : List Move) :
    let integers := (blank config.tapeSize).moveAll moves
    let tape := (Tape.blank config.tapeSize).performAll config (moves.map Move.command)
    (tape.head = integers.head ∧ integers.head < config.tapeSize) ∧
      tape.cells.size = config.tapeSize ∧
      (∀ index < config.tapeSize, ∃ integer cell, integers.cells[index]? = some integer ∧
        tape.cells[index]? = some cell ∧ (cell : Int) = integer % 2 ^ config.width.bits) ∧
      (∀ move next, integers.move? move = some next →
        tape.perform config move.command = .done .nothing (next.reduce config.width)) ∧
      (∀ move, integers.move? move = none ↔
        ∃ fault, tape.perform config move.command = .refused (.tape (.fault fault)) tape ∧
          (move = .right ∧ fault.kind = .headOverflow ∨
            move = .left ∧ fault.kind = .headUnderflow)) ∧
      (∀ value, tape.StoresMasked config (.write value) value) ∧
      tape.StoresMasked config .increment (tape.current + 1) ∧
      tape.StoresMasked config .decrement (tape.current - 1) := by
  intro integers tape
  obtain ⟨htape, hwithin⟩ := performAll_reduce hoverflow hunderflow
    (blank_within config.tapeSize_pos) moves
  rw [reduce_blank] at htape
  have hsound := reduce_sound hwithin
  change tape = integers.reduce config.width at htape
  rw [← htape] at hsound
  refine ⟨⟨congrArg Tape.head htape, hwithin.head_lt⟩, hsound.size_eq, ?_, ?_, ?_, ?_, ?_, ?_⟩
  · intro index hindex
    have hlt : index < integers.cells.length := hwithin.length_eq.symm ▸ hindex
    refine ⟨_, _, List.getElem?_eq_getElem hlt, ?_, config.width.natCast_wrap _⟩
    rw [htape, reduce, List.getElem?_toArray, List.getElem?_map, List.getElem?_eq_getElem hlt]
    rfl
  · intro move next hnext
    rw [htape]
    exact perform_of_move?_eq_some hoverflow hunderflow hwithin hnext
  · intro move
    rw [htape]
    exact move?_eq_none_iff hoverflow hunderflow hwithin move
  · intro value
    exact Tape.storesMasked_of_eq_put (congrArg Tape.silently (hsound.write_eq _ value))
  · exact Tape.storesMasked_of_eq_put
      (congrArg Tape.silently (hsound.increment_eq_put hoverflow))
  · exact Tape.storesMasked_of_eq_put
      (congrArg Tape.silently (hsound.decrement_eq_put hunderflow))

/-- Two cells, at both ends of the row and of the width: a negative value is stored, the head is
kept from leaving on either side, and a zero cell is decremented. -/
theorem wrapping_tape_reduces_integer_tape_of_two_cells :
    let config : Config := ⟨2, by decide, .eight, .wrap, .wrap, .zero⟩
    let moves := [Move.write (-300), .right, .right, .decrement, .left, .left, .increment]
    config.overflow = .wrap ∧ config.underflow = .wrap ∧
      (blank 2).moveAll moves = ⟨[-299, -1], 0⟩ ∧
      (Tape.blank 2).performAll config (moves.map Move.command) = ⟨#[213, 255], 0⟩ ∧
      (∃ integer cell, [-299, -1][0]? = some integer ∧ #[213, 255][0]? = some cell ∧
        ((cell : Nat) : Int) = integer % 2 ^ 8) ∧
      ∃ fault, (⟨#[213, 255], 0⟩ : Tape).perform config .left =
        .refused (.tape (.fault fault)) ⟨#[213, 255], 0⟩ := by
  intro config moves
  have hintegers : (blank 2).moveAll moves = ⟨[-299, -1], 0⟩ := by decide
  have htape : (Tape.blank 2).performAll config (moves.map Move.command) = ⟨#[213, 255], 0⟩ := by
    decide
  have hoverflow : config.overflow = .wrap := rfl
  obtain ⟨-, -, hcells, -, hrefused, -⟩ :=
    wrapping_tape_reduces_integer_tape hoverflow rfl moves
  obtain ⟨fault, hperform, -⟩ := (hrefused .left).mp (by rw [hintegers]; rfl)
  rw [htape] at hperform
  have hfirst := hcells 0 (by decide)
  rw [hintegers, htape] at hfirst
  exact ⟨rfl, rfl, hintegers, htape, hfirst, fault, hperform⟩

end IntegerTape

end TapeMachine
