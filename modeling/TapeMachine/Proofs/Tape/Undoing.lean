/-
# Undoing

A nudge takes the head to a neighbouring cell or the current cell to a neighbouring value. It is
undone by the opposite nudge, and a sequence of nudges by the opposite ones in reverse.

At the two ends of the row there is nothing to show: a head that has moved has the cell that it
came from beside it. At the two ends of the width it depends on the configuration. If a full cell
and a zero cell both wrap, each nudge leads across the same seam as its opposite, and if both trap,
neither leads across. If only one of them wraps, the cell comes to the other side and cannot come
back.
-/

import TapeMachine.Proofs.Tape.Sound

namespace TapeMachine

namespace Tape

/-- Take the head to a neighbouring cell, or the current cell to a neighbouring value. -/
inductive Nudge where
  | right
  | left
  | increment
  | decrement
  deriving DecidableEq

namespace Nudge

def opposite : Nudge → Nudge
  | right => left
  | left => right
  | increment => decrement
  | decrement => increment

/-- What a nudge does to a tape. -/
def apply (config : Config) : Nudge → Tape → Attempt TapeError Tape Unit
  | right => Tape.right
  | left => Tape.left
  | increment => Tape.increment config
  | decrement => Tape.decrement config

/-- The nudges that take back what others have done: their opposites, the last one first. -/
def undo (nudges : List Nudge) : List Nudge := (nudges.map opposite).reverse

theorem undo_cons (nudge : Nudge) (nudges : List Nudge) :
    undo (nudge :: nudges) = undo nudges ++ [nudge.opposite] := by
  rw [undo, List.map_cons, List.reverse_cons, undo]

end Nudge

/-- Make nudges one after another until one is refused. -/
def nudge (config : Config) : List Nudge → Tape → Attempt TapeError Tape Unit
  | [], tape => .done () tape
  | first :: rest, tape =>
      match first.apply config tape with
      | .done _ tape => tape.nudge config rest
      | .refused reason tape => .refused reason tape

variable {config : Config} {tape middle last : Tape}

theorem nudge_append {first : List Nudge} (hfirst : tape.nudge config first = .done () middle)
    (second : List Nudge) : tape.nudge config (first ++ second) = middle.nudge config second := by
  induction first generalizing tape with
  | nil =>
      obtain ⟨-, rfl⟩ := Attempt.done.inj hfirst
      rfl
  | cons start rest ih =>
      rw [nudge] at hfirst
      rw [List.cons_append, nudge]
      cases hstart : start.apply config tape with
      | done _ next =>
          rw [hstart] at hfirst
          exact ih hfirst
      | refused reason next =>
          rw [hstart] at hfirst
          contradiction

theorem nudge_singleton_iff {nudge : Nudge} :
    tape.nudge config [nudge] = .done () last ↔ nudge.apply config tape = .done () last := by
  rw [Tape.nudge]
  cases nudge.apply config tape with
  | done _ next => rfl
  | refused reason next =>
      constructor
      · exact nofun
      · exact nofun

theorem withHead_withHead (tape : Tape) (away : Int) :
    (tape.withHead away).withHead tape.head = tape := rfl

namespace Sound

variable (hsound : tape.Sound config)

include hsound

theorem left_of_right (hright : tape.right = .done () last) :
    last.Sound config ∧ last.left = .done () tape := by
  have hnonneg := hsound.head_nonneg
  rw [hsound.right_eq] at hright
  split at hright
  · rename_i hroom
    obtain ⟨-, rfl⟩ := Attempt.done.inj hright
    have hlast := hsound.withHead (Int.le_add_one hnonneg) hroom
    refine ⟨hlast, ?_⟩
    rw [hlast.left_eq, withHead_head, if_neg (by omega), Int.add_sub_cancel, withHead_withHead]
  · contradiction

theorem right_of_left (hleft : tape.left = .done () last) :
    last.Sound config ∧ last.right = .done () tape := by
  have hnonneg := hsound.head_nonneg
  have hlt := hsound.head_lt
  rw [hsound.left_eq] at hleft
  split at hleft
  · contradiction
  · rename_i hfirst
    obtain ⟨-, rfl⟩ := Attempt.done.inj hleft
    have hlast : (tape.withHead (tape.head - 1)).Sound config :=
      hsound.withHead (by omega) (by omega)
    refine ⟨hlast, ?_⟩
    rw [hlast.right_eq, withHead_head, Int.sub_add_cancel, if_pos hlt, withHead_withHead]

theorem decrement_of_increment (hsame : config.overflow = config.underflow)
    (hincrement : tape.increment config = .done () last) :
    last.Sound config ∧ last.decrement config = .done () tape := by
  have hle := hsound.current_le
  rw [hsound.increment_eq] at hincrement
  by_cases hroom : tape.current < config.width.largest
  · rw [if_pos hroom] at hincrement
    obtain ⟨-, rfl⟩ := Attempt.done.inj hincrement
    have hlast := hsound.put (Nat.succ_le_of_lt hroom)
    refine ⟨hlast, ?_⟩
    rw [hlast.decrement_eq, hsound.current_put, if_pos (Nat.succ_pos _), Nat.succ_sub_one, put_put,
      hsound.put_current]
  · have hfull : tape.current = config.width.largest := by omega
    rw [if_neg hroom] at hincrement
    cases hoverflow : config.overflow with
    | wrap =>
        -- The cell is now zero, and the other policy is the same, so that it can be taken back.
        rw [hoverflow] at hincrement
        obtain ⟨-, rfl⟩ := Attempt.done.inj hincrement
        have hunderflow : config.underflow = .wrap := hsame.symm.trans hoverflow
        have hlast := hsound.put (Nat.zero_le config.width.largest)
        refine ⟨hlast, ?_⟩
        rw [hlast.decrement_eq, hsound.current_put, if_neg (Nat.lt_irrefl 0), hunderflow]
        simp only
        rw [put_put, ← hfull, hsound.put_current]
    | trap =>
        rw [hoverflow] at hincrement
        contradiction

theorem increment_of_decrement (hsame : config.overflow = config.underflow)
    (hdecrement : tape.decrement config = .done () last) :
    last.Sound config ∧ last.increment config = .done () tape := by
  have hle := hsound.current_le
  rw [hsound.decrement_eq] at hdecrement
  by_cases hpos : 0 < tape.current
  · rw [if_pos hpos] at hdecrement
    obtain ⟨-, rfl⟩ := Attempt.done.inj hdecrement
    have hlast : (tape.put (tape.current - 1)).Sound config := hsound.put (by omega)
    refine ⟨hlast, ?_⟩
    rw [hlast.increment_eq, hsound.current_put, if_pos (by omega), Nat.sub_add_cancel hpos, put_put,
      hsound.put_current]
  · have hzero : tape.current = 0 := by omega
    rw [if_neg hpos] at hdecrement
    cases hunderflow : config.underflow with
    | wrap =>
        rw [hunderflow] at hdecrement
        obtain ⟨-, rfl⟩ := Attempt.done.inj hdecrement
        have hoverflow : config.overflow = .wrap := hsame.trans hunderflow
        have hlast := hsound.put (Nat.le_refl config.width.largest)
        refine ⟨hlast, ?_⟩
        rw [hlast.increment_eq, hsound.current_put, if_neg (Nat.lt_irrefl _), hoverflow]
        simp only
        rw [put_put, ← hzero, hsound.put_current]
    | trap =>
        rw [hunderflow] at hdecrement
        contradiction

/-- A nudge that has been made is taken back by the opposite one. -/
theorem apply_opposite (hsame : config.overflow = config.underflow) (nudge : Nudge)
    (hnudge : nudge.apply config tape = .done () last) :
    last.Sound config ∧ nudge.opposite.apply config last = .done () tape := by
  cases nudge with
  | right => exact hsound.left_of_right hnudge
  | left => exact hsound.right_of_left hnudge
  | increment => exact hsound.decrement_of_increment hsame hnudge
  | decrement => exact hsound.increment_of_decrement hsame hnudge

end Sound

/-- Nudges that have all been made are taken back one by one. -/
theorem Sound.nudge_undo (hsound : tape.Sound config) (hsame : config.overflow = config.underflow)
    {nudges : List Nudge} (hnudges : tape.nudge config nudges = .done () last) :
    last.nudge config (Nudge.undo nudges) = .done () tape := by
  induction nudges generalizing tape with
  | nil =>
      obtain ⟨-, rfl⟩ := Attempt.done.inj hnudges
      rfl
  | cons first rest ih =>
      rw [nudge] at hnudges
      cases hfirst : first.apply config tape with
      | done _ next =>
          rw [hfirst] at hnudges
          obtain ⟨hnext, hback⟩ := hsound.apply_opposite hsame first hfirst
          rw [Nudge.undo_cons, nudge_append (ih hnext hnudges), nudge, hback]
          rfl
      | refused reason next =>
          rw [hfirst] at hnudges
          contradiction

/-- Where one end of the width wraps and the other one traps, a cell that has been taken across is
kept from coming back. -/
theorem exists_not_undone (hdiffer : config.overflow ≠ config.underflow) :
    ∃ (tape last : Tape) (nudge : Nudge), tape.Sound config ∧
      nudge.apply config tape = .done () last ∧
        nudge.opposite.apply config last ≠ .done () tape := by
  have hzero := blank_sound config
  have hcurrent := blank_current config.tapeSize
  have hfull := hzero.put (Nat.le_refl config.width.largest)
  have hemptied := hfull.put (Nat.zero_le config.width.largest)
  cases hoverflow : config.overflow with
  | wrap =>
      have hunderflow : config.underflow = .trap := by
        cases hunderflow : config.underflow with
        | wrap => exact absurd (hoverflow.trans hunderflow.symm) hdiffer
        | trap => rfl
      refine ⟨_, ((blank config.tapeSize).put config.width.largest).put 0, .increment, hfull, ?_,
        ?_⟩
      · rw [Nudge.apply, hfull.increment_eq, hzero.current_put, if_neg (Nat.lt_irrefl _),
          hoverflow]
      · rw [Nudge.opposite, Nudge.apply, hemptied.decrement_eq, hfull.current_put,
          if_neg (Nat.lt_irrefl 0), hunderflow]
        exact nofun
  | trap =>
      have hunderflow : config.underflow = .wrap := by
        cases hunderflow : config.underflow with
        | wrap => rfl
        | trap => exact absurd (hoverflow.trans hunderflow.symm) hdiffer
      refine ⟨_, (blank config.tapeSize).put config.width.largest, .decrement, hzero, ?_, ?_⟩
      · rw [Nudge.apply, hzero.decrement_eq, hcurrent, if_neg (Nat.lt_irrefl 0), hunderflow]
      · rw [Nudge.opposite, Nudge.apply, hfull.increment_eq, hzero.current_put,
          if_neg (Nat.lt_irrefl _), hoverflow]
        exact nofun

/-- On a tape with its head on its cells, a sequence of nudges that are all made can be undone: the
opposite ones in reverse are all made as well, and leave the head and every cell as they were
before. This holds of the configurations in which a full cell and a zero cell both wrap or both
trap, and of no others. -/
theorem undoing_restores_iff (config : Config) :
    config.overflow = config.underflow ↔
      ∀ (tape last : Tape) (nudges : List Nudge), tape.Sound config →
        tape.nudge config nudges = .done () last →
          last.nudge config (Nudge.undo nudges) = .done () tape := by
  constructor
  · intro hsame tape last nudges hsound hnudges
    exact hsound.nudge_undo hsame hnudges
  · intro hundone
    apply Decidable.byContradiction
    intro hdiffer
    obtain ⟨tape, last, first, hsound, hfirst, hkept⟩ := exists_not_undone hdiffer
    apply hkept
    apply nudge_singleton_iff.mp
    exact hundone tape last [first] hsound (nudge_singleton_iff.mpr hfirst)

/-- Two cells that trap: the head goes there and back, and both ends of the row and of the width
are touched. -/
example :
    let config : Config := ⟨2, by decide, .eight, .trap, .trap, .zero⟩
    let nudges := [Nudge.increment, .right, .decrement, .left]
    (⟨#[254, 1], 0⟩ : Tape).nudge config nudges = .done () ⟨#[255, 0], 0⟩ ∧
      (⟨#[255, 0], 0⟩ : Tape).nudge config (Nudge.undo nudges) = .done () ⟨#[254, 1], 0⟩ :=
  ⟨rfl, rfl⟩

end Tape

end TapeMachine
