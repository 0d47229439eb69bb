/-
# Drifting over integers

One integer tape drifts to another if the head is taken some way and every cell has an amount added
to it that depends on its offset from the head. Drifts one after another make up a drift, in which
the offsets of the later one are told from where the earlier one has taken the head. On an integer
tape nothing wraps, so the same drift made many times adds the multiple of each amount.
-/

import TapeMachine.Program.Drift
import TapeMachine.Proofs.Tape.Wrapping

namespace TapeMachine

namespace IntegerTape

open Drift

/-- The head is taken so far to the right, and each cell has the amount for its offset added. -/
structure Drifts (shift : Int) (change : Int → Int) (tape next : IntegerTape) : Prop where
  head_eq : (next.head : Int) = tape.head + shift
  cells_eq : next.cells =
    tape.cells.mapIdx fun index cell => cell + change ((index : Int) - tape.head)

variable {tape next last : IntegerTape} {shift more : Int} {change further : Int → Int}

namespace Drifts

theorem length_eq (hdrifts : Drifts shift change tape next) :
    next.cells.length = tape.cells.length := by
  rw [hdrifts.cells_eq, List.length_mapIdx]

theorem getElem?_eq (hdrifts : Drifts shift change tape next) (index : Nat) :
    next.cells[index]? = tape.cells[index]?.map (· + change ((index : Int) - tape.head)) := by
  rw [hdrifts.cells_eq, List.getElem?_mapIdx]

theorem getElem?_reduce (hdrifts : Drifts shift change tape next) (width : Width) (index : Nat) :
    (next.reduce width).cells[index]? = tape.cells[index]?.map fun cell =>
      width.wrap (cell + change ((index : Int) - tape.head)) := by
  rw [reduce, List.getElem?_toArray, List.getElem?_map, hdrifts.getElem?_eq, Option.map_map]
  rfl

theorem within {size : Nat} (hdrifts : Drifts shift change tape next) (hwithin : tape.Within size)
    (hroom : (tape.head : Int) + shift < size) : next.Within size where
  length_eq := hdrifts.length_eq.trans hwithin.length_eq
  head_lt := by
    rw [← hdrifts.head_eq] at hroom
    exact Int.ofNat_lt.mp hroom

theorem trans (hfirst : Drifts shift change tape next) (hsecond : Drifts more further next last) :
    Drifts (shift + more) (fun offset => change offset + further (offset - shift)) tape last where
  head_eq := by rw [hsecond.head_eq, hfirst.head_eq, Int.add_assoc]
  cells_eq := by
    rw [hsecond.cells_eq, hfirst.cells_eq, List.mapIdx_mapIdx]
    congr 1
    funext index cell
    rw [Function.comp_apply, hfirst.head_eq, Int.add_assoc, Int.sub_sub]

/-- A drift that leaves the head where it is adds its amount to the current cell. -/
theorem current_eq {size : Nat} (hdrifts : Drifts 0 change tape next)
    (hwithin : tape.Within size) : next.current = tape.current + change 0 := by
  have hhead : next.head = tape.head := by
    have := hdrifts.head_eq
    omega
  have hlt : tape.head < tape.cells.length := hwithin.length_eq.symm ▸ hwithin.head_lt
  rw [current, current, hhead, hdrifts.getElem?_eq, List.getElem?_eq_getElem hlt, Int.sub_self]
  rfl

end Drifts

theorem drifts_withHead (tape : IntegerTape) (head : Nat) :
    Drifts ((head : Int) - tape.head) (atHead 0) tape { tape with head } where
  head_eq := by
    change (head : Int) = _
    omega
  cells_eq := by
    apply List.ext_getElem?
    intro index
    rw [List.getElem?_mapIdx]
    simp [atHead]

theorem drifts_change (tape : IntegerTape) (amount : Int) :
    Drifts 0 (atHead amount) tape (tape.change (· + amount)) where
  head_eq := (Int.add_zero _).symm
  cells_eq := by
    apply List.ext_getElem?
    intro index
    rw [List.getElem?_mapIdx, IntegerTape.change, List.getElem?_modify]
    by_cases hindex : tape.head = index
    · simp [atHead, hindex]
    · have hoffset : ¬ (index : Int) - tape.head = 0 := by omega
      simp [atHead, hindex, hoffset]

theorem drifts_refl (tape : IntegerTape) : Drifts 0 (fun _ => 0) tape tape where
  head_eq := (Int.add_zero _).symm
  cells_eq := by
    apply List.ext_getElem?
    intro index
    rw [List.getElem?_mapIdx]
    simp

/-- One round more of a drift adds each amount once more. -/
theorem Drifts.succ {rounds : Nat} (hround : Drifts 0 change tape next)
    (hrest : Drifts 0 (fun offset => (rounds : Int) * change offset) next last) :
    Drifts 0 (fun offset => ((rounds + 1 : Nat) : Int) * change offset) tape last := by
  have htrans := hround.trans hrest
  have hchange : (fun offset => change offset + (rounds : Int) * change (offset - 0)) =
      fun offset => ((rounds + 1 : Nat) : Int) * change offset := by
    funext offset
    rw [Int.sub_zero, Int.natCast_add_one, Int.add_mul, Int.one_mul, Int.add_comm]
  rwa [hchange] at htrans

end IntegerTape

namespace Tape

/-- The cells of a tape as integers. -/
def integers (tape : Tape) : IntegerTape where
  cells := tape.cells.toList.map Int.ofNat
  head := tape.head.toNat

variable {config : Config} {tape : Tape}

theorem getElem?_integers (tape : Tape) (index : Nat) :
    tape.integers.cells[index]? = tape.cells[index]?.map Int.ofNat := by
  rw [integers, List.getElem?_map, Array.getElem?_toList]

theorem current_integers (tape : Tape) : tape.integers.current = tape.current := by
  rw [IntegerTape.current, current]
  change tape.integers.cells[tape.head.toNat]?.getD 0 = _
  rw [getElem?_integers]
  cases tape.cells[tape.head.toNat]? <;> rfl

namespace Sound

theorem integers_within (hsound : tape.Sound config) : tape.integers.Within config.tapeSize where
  length_eq := by
    rw [integers, List.length_map, Array.length_toList]
    exact hsound.size_eq
  head_lt := by
    have := hsound.head_lt
    have := hsound.head_nonneg
    simp only [integers]
    omega

theorem integers_head (hsound : tape.Sound config) : (tape.integers.head : Int) = tape.head :=
  Int.toNat_of_nonneg hsound.head_nonneg

/-- The cells of a tape fit their width, so that nothing is lost of them when they are reduced. -/
theorem reduce_integers (hsound : tape.Sound config) :
    tape.integers.reduce config.width = tape := by
  have hcells : (tape.cells.toList.map Int.ofNat).map config.width.wrap = tape.cells.toList := by
    rw [List.map_map]
    refine (List.map_congr_left ?_).trans (List.map_id _)
    intro cell hcell
    exact Width.wrap_of_le_largest (hsound.cell_le cell (Array.mem_toList_iff.mp hcell))
  rw [IntegerTape.reduce, integers_head hsound, integers, hcells]

end Sound

end Tape

end TapeMachine
