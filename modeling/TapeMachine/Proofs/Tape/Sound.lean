/-
# Sound tapes

A tape is sound for a configuration if it has the configured number of cells, its head stands at
one of them, and every cell holds a value of the configured width. Every operation keeps a tape
sound, and on a sound tape each of them has a plain description: no signed position is resolved,
reading and writing never fail, and a value is reduced to the width only where it wraps.
-/

import Mathlib.Algebra.Group.Nat.Defs
import TapeMachine.Tape

namespace TapeMachine

namespace Width

theorem largest_eq_two_pow_sub_one (width : Width) : width.largest = 2 ^ width.bits - 1 := by
  cases width <;> rfl

theorem wrap_largest_add_one (width : Width) : width.wrap ((width.largest : Int) + 1) = 0 := by
  cases width <;> rfl

theorem wrap_neg_one (width : Width) : width.wrap (-1) = width.largest := by
  cases width <;> rfl

/-- Every byte fits a cell of any width. -/
theorem wrap_byte (width : Width) (byte : UInt8) : width.wrap byte.toNat = byte.toNat := by
  have hfits : byte.toNat ≤ width.largest := by
    have hbyte := byte.toNat_lt
    cases width <;> simp only [largest, count] <;> omega
  exact wrap_of_le_largest hfits

end Width

namespace Tape

/-- The value of the cell at the head. -/
def current (tape : Tape) : Nat := tape.cells[tape.head.toNat]?.getD 0

/-- The tape with another value in the cell at the head. -/
def put (value : Nat) (tape : Tape) : Tape :=
  { tape with cells := tape.cells.setIfInBounds tape.head.toNat value }

/-- The tape with its head elsewhere. -/
def withHead (head : Int) (tape : Tape) : Tape := { tape with head }

@[simp]
theorem withHead_head (tape : Tape) (head : Int) : (tape.withHead head).head = head := rfl

/-- Of two values stored in a cell the later one stays. -/
theorem put_put (tape : Tape) (first second : Nat) :
    (tape.put first).put second = tape.put second := by
  simp [put]

structure Sound (config : Config) (tape : Tape) : Prop where
  size_eq : tape.cells.size = config.tapeSize
  head_nonneg : 0 ≤ tape.head
  head_lt : tape.head < config.tapeSize
  cell_le : ∀ cell ∈ tape.cells, cell ≤ config.width.largest

variable {config : Config} {tape : Tape}

theorem blank_sound (config : Config) : (blank config.tapeSize).Sound config where
  size_eq := by simp [blank]
  head_nonneg := by simp [blank]
  head_lt := by
    have := config.tapeSize_pos
    simp only [blank]
    omega
  cell_le cell hcell := by
    obtain ⟨-, rfl⟩ : config.tapeSize ≠ 0 ∧ cell = 0 := by simpa [blank] using hcell
    exact Nat.zero_le _

@[simp]
theorem blank_current (size : Nat) : (blank size).current = 0 := by
  rw [current, blank, Array.getElem?_replicate]
  split <;> rfl

namespace Sound

theorem put (hsound : tape.Sound config) {value : Nat} (hle : value ≤ config.width.largest) :
    (tape.put value).Sound config where
  size_eq := by simpa [Tape.put] using hsound.size_eq
  head_nonneg := hsound.head_nonneg
  head_lt := hsound.head_lt
  cell_le cell hcell := by
    rcases Array.mem_or_eq_of_mem_setIfInBounds hcell with hold | rfl
    · exact hsound.cell_le cell hold
    · exact hle

theorem withHead (hsound : tape.Sound config) {head : Int} (hnonneg : 0 ≤ head)
    (hlt : head < config.tapeSize) : (tape.withHead head).Sound config where
  size_eq := hsound.size_eq
  head_nonneg := hnonneg
  head_lt := hlt
  cell_le := hsound.cell_le

/-- The head of a sound tape resolves to the cell that it names. -/
theorem resolve_head (hsound : tape.Sound config) :
    ∃ hlt : tape.head.toNat < tape.cells.size,
      Index.resolve tape.cells.size tape.head = some ⟨tape.head.toNat, hlt⟩ := by
  have hnonneg := hsound.head_nonneg
  have hlt : tape.head.toNat < tape.cells.size := by
    rw [hsound.size_eq]
    have := hsound.head_lt
    omega
  refine ⟨hlt, ?_⟩
  have hresolve := Index.resolve_ofNat hlt
  rwa [Int.toNat_of_nonneg hnonneg] at hresolve

theorem read_eq (hsound : tape.Sound config) : tape.read = .ok tape.current := by
  obtain ⟨hlt, hresolve⟩ := hsound.resolve_head
  simp [read, current, hresolve, hlt]

theorem write_eq (hsound : tape.Sound config) (width : Width) (value : Int) :
    tape.write width value = .done () (tape.put (width.wrap value)) := by
  obtain ⟨hlt, hresolve⟩ := hsound.resolve_head
  simp [write, Tape.put, hresolve, Array.setIfInBounds, hlt]

theorem refuse_eq (hsound : tape.Sound config) (fault : Int → Nat → Fault) :
    tape.refuse fault = .refused (.fault (fault tape.head tape.current)) tape := by
  rw [refuse, hsound.read_eq]

theorem current_le (hsound : tape.Sound config) : tape.current ≤ config.width.largest := by
  obtain ⟨hlt, -⟩ := hsound.resolve_head
  rw [current, Array.getElem?_eq_getElem hlt, Option.getD_some]
  exact hsound.cell_le _ (Array.getElem_mem hlt)

theorem current_put (hsound : tape.Sound config) (value : Nat) :
    (tape.put value).current = value := by
  obtain ⟨hlt, -⟩ := hsound.resolve_head
  simp [current, Tape.put, hlt]

/-- Storing the value that a cell has changes nothing. -/
theorem put_current (hsound : tape.Sound config) : tape.put tape.current = tape := by
  obtain ⟨hlt, -⟩ := hsound.resolve_head
  simp [current, Tape.put, Array.setIfInBounds, hlt]

theorem right_eq (hsound : tape.Sound config) :
    tape.right =
      if tape.head + 1 < config.tapeSize then .done () (tape.withHead (tape.head + 1))
      else .refused (.fault (Fault.headOverflow config.tapeSize tape.head tape.current)) tape := by
  rw [right, hsound.size_eq, hsound.refuse_eq]
  by_cases hroom : tape.head + 1 < config.tapeSize
  · rw [if_neg (by omega), if_pos hroom]
    rfl
  · rw [if_pos (by omega), if_neg hroom]

theorem left_eq (hsound : tape.Sound config) :
    tape.left =
      if tape.head = 0 then
        .refused (.fault (Fault.headUnderflow tape.head tape.current)) tape
      else .done () (tape.withHead (tape.head - 1)) := by
  rw [left, hsound.refuse_eq]
  rfl

theorem increment_eq (hsound : tape.Sound config) :
    tape.increment config =
      if tape.current < config.width.largest then .done () (tape.put (tape.current + 1))
      else
        match config.overflow with
        | .wrap => .done () (tape.put 0)
        | .trap => .refused (.fault
            (Fault.dataOverflow config.width.largest tape.head tape.current)) tape := by
  have hle := hsound.current_le
  rw [increment, hsound.read_eq]
  by_cases hroom : tape.current < config.width.largest
  · have hne : ¬ (tape.current = config.width.largest ∧ config.overflow = .trap) := by
      rintro ⟨hfull, -⟩
      omega
    have hwrap : config.width.wrap ((tape.current : Int) + 1) = tape.current + 1 :=
      Width.wrap_of_le_largest (Nat.succ_le_of_lt hroom)
    simp only [hne, hroom, if_false, if_true, hsound.write_eq, hwrap]
  · have hfull : tape.current = config.width.largest := by omega
    cases hoverflow : config.overflow with
    | wrap => simp [hfull, hsound.write_eq, Width.wrap_largest_add_one]
    | trap => simp [hfull]

theorem decrement_eq (hsound : tape.Sound config) :
    tape.decrement config =
      if 0 < tape.current then .done () (tape.put (tape.current - 1))
      else
        match config.underflow with
        | .wrap => .done () (tape.put config.width.largest)
        | .trap => .refused (.fault (Fault.dataUnderflow tape.head tape.current)) tape := by
  have hle := hsound.current_le
  rw [decrement, hsound.read_eq]
  by_cases hpos : 0 < tape.current
  · have hne : ¬ (tape.current = 0 ∧ config.underflow = .trap) := by
      rintro ⟨hzero, -⟩
      omega
    have hwrap : config.width.wrap ((tape.current : Int) - 1) = tape.current - 1 := by
      have hpred := Width.wrap_of_le_largest (Nat.le_trans (Nat.sub_le tape.current 1) hle)
      rwa [Int.ofNat_sub hpos] at hpred
    simp only [hne, hpos, if_false, if_true, hsound.write_eq, hwrap]
  · have hzero : tape.current = 0 := by omega
    cases hunderflow : config.underflow with
    | wrap => simp [hzero, hsound.write_eq, Width.wrap_neg_one]
    | trap => simp [hzero]

end Sound

end Tape

end TapeMachine
