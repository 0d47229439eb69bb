/-
# Runs with more resources

The length of the tape and the width of the cells are limits, and a run knows of a limit only when
it meets it. A tape that is longer is the shorter one with zeros behind it, for as long as the head
stays in front of them. If no cell wraps, wider cells hold what narrower cells hold. So a run that
does not run out of room does the same with more of it.
-/

import TapeMachine.Proofs.Machine.Lockstep

namespace TapeMachine

namespace Width

theorem largest_mono {narrow wide : Width} (hbits : narrow.bits ≤ wide.bits) :
    narrow.largest ≤ wide.largest := by
  cases narrow <;> cases wide <;> simp_all [bits, largest, count]

end Width

namespace Tape

/-- The tape with more cells behind its last one, all of them zero. -/
def pad (count : Nat) (tape : Tape) : Tape :=
  { tape with cells := tape.cells ++ Array.replicate count 0 }

@[simp]
theorem pad_head (count : Nat) (tape : Tape) : (tape.pad count).head = tape.head := rfl

theorem blank_pad (size count : Nat) : (blank size).pad count = blank (size + count) := by
  simp [pad, blank]

/-- Behind the tape are zeros, and a cell that is missing counts as zero. -/
@[simp]
theorem pad_current (count : Nat) (tape : Tape) : (tape.pad count).current = tape.current := by
  simp only [pad, current, Array.getElem?_append]
  split
  · rfl
  · rename_i hbeyond
    rw [Array.getElem?_eq_none (Nat.le_of_not_lt hbeyond), Array.getElem?_replicate]
    split <;> rfl

end Tape

namespace Config

/-- `long` has at least as many cells as `short`, and nothing else is different. -/
structure Lengthens (long short : Config) : Prop where
  tapeSize : short.tapeSize ≤ long.tapeSize
  width : long.width = short.width
  overflow : long.overflow = short.overflow
  underflow : long.underflow = short.underflow
  atEnd : long.atEnd = short.atEnd

/-- Nothing wraps under either configuration, the cells of `wide` have at least as many bits as
those of `narrow`, and nothing else is different. -/
structure Widens (wide narrow : Config) : Prop where
  tapeSize : wide.tapeSize = narrow.tapeSize
  width : narrow.width.bits ≤ wide.width.bits
  overflow : narrow.overflow = .trap ∧ wide.overflow = .trap
  underflow : narrow.underflow = .trap ∧ wide.underflow = .trap
  atEnd : wide.atEnd = narrow.atEnd

variable {short long narrow wide : Config} {tape : Tape}

section Length

/-- The second tape is the first with zeros behind it, as many as the second configuration has
cells more. -/
def Padded (short long : Config) (tape other : Tape) : Prop :=
  other = tape.pad (long.tapeSize - short.tapeSize)

theorem Lengthens.pad_sound (hlengthens : long.Lengthens short) (hsound : tape.Sound short) :
    (tape.pad (long.tapeSize - short.tapeSize)).Sound long where
  size_eq := by
    have := hlengthens.tapeSize
    simp only [Tape.pad, Array.size_append, Array.size_replicate, hsound.size_eq]
    omega
  head_nonneg := hsound.head_nonneg
  head_lt := by
    have := hlengthens.tapeSize
    have := hsound.head_lt
    simp only [Tape.pad_head]
    omega
  cell_le cell hcell := by
    rw [hlengthens.width]
    rcases Array.mem_append.mp hcell with hold | hnew
    · exact hsound.cell_le cell hold
    · rw [(Array.mem_replicate.mp hnew).2]
      exact Nat.zero_le _

/-- Writing behind the head and writing in front of the padding is the same. -/
theorem put_padded (hsound : tape.Sound short) (long : Config) (value : Nat) :
    Padded short long (tape.put value)
      ((tape.pad (long.tapeSize - short.tapeSize)).put value) := by
  obtain ⟨hlt, -⟩ := hsound.resolve_head
  simp only [Padded, Tape.put, Tape.pad, Array.setIfInBounds_append_left hlt]

theorem Lengthens.right_alike (hlengthens : long.Lengthens short) (hsound : tape.Sound short) :
    Attempt.Alike (TapeError.OfKind (· = .headOverflow)) (Padded short long) tape.right
      (tape.pad (long.tapeSize - short.tapeSize)).right := by
  rw [hsound.right_eq, (hlengthens.pad_sound hsound).right_eq, Tape.pad_head]
  by_cases hroom : tape.head + 1 < short.tapeSize
  · have hmore : tape.head + 1 < long.tapeSize := by
      have := hlengthens.tapeSize
      omega
    rw [if_pos hroom, if_pos hmore]
    exact .done rfl
  · rw [if_neg hroom]
    exact .excused rfl

theorem Lengthens.left_alike (hlengthens : long.Lengthens short) (hsound : tape.Sound short) :
    Attempt.Alike (TapeError.OfKind (· = .headOverflow)) (Padded short long) tape.left
      (tape.pad (long.tapeSize - short.tapeSize)).left := by
  rw [hsound.left_eq, (hlengthens.pad_sound hsound).left_eq, Tape.pad_head, Tape.pad_current]
  by_cases hfirst : tape.head = 0
  · rw [if_pos hfirst, if_pos hfirst]
    exact .refused rfl
  · rw [if_neg hfirst, if_neg hfirst]
    exact .done rfl

theorem Lengthens.increment_alike (hlengthens : long.Lengthens short)
    (hsound : tape.Sound short) :
    Attempt.Alike (TapeError.OfKind (· = .headOverflow)) (Padded short long)
      (tape.increment short)
      ((tape.pad (long.tapeSize - short.tapeSize)).increment long) := by
  rw [hsound.increment_eq, (hlengthens.pad_sound hsound).increment_eq, Tape.pad_head,
    Tape.pad_current, hlengthens.width, hlengthens.overflow]
  by_cases hroom : tape.current < short.width.largest
  · rw [if_pos hroom, if_pos hroom]
    exact .done (put_padded hsound long _)
  · rw [if_neg hroom, if_neg hroom]
    cases short.overflow with
    | wrap => exact .done (put_padded hsound long _)
    | trap => exact .refused rfl

theorem Lengthens.decrement_alike (hlengthens : long.Lengthens short)
    (hsound : tape.Sound short) :
    Attempt.Alike (TapeError.OfKind (· = .headOverflow)) (Padded short long)
      (tape.decrement short)
      ((tape.pad (long.tapeSize - short.tapeSize)).decrement long) := by
  rw [hsound.decrement_eq, (hlengthens.pad_sound hsound).decrement_eq, Tape.pad_head,
    Tape.pad_current, hlengthens.width, hlengthens.underflow]
  by_cases hpos : 0 < tape.current
  · rw [if_pos hpos, if_pos hpos]
    exact .done (put_padded hsound long _)
  · rw [if_neg hpos, if_neg hpos]
    cases short.underflow with
    | wrap => exact .done (put_padded hsound long _)
    | trap => exact .refused rfl

theorem Lengthens.store_alike (hlengthens : long.Lengthens short) (byte : Option UInt8)
    (hsound : tape.Sound short) :
    Attempt.Alike (TapeError.OfKind (· = .headOverflow)) (Padded short long)
      (State.store short byte tape)
      (State.store long byte (tape.pad (long.tapeSize - short.tapeSize))) := by
  have hpadded := hlengthens.pad_sound hsound
  cases byte with
  | some byte =>
      rw [State.store, State.store, hsound.write_eq, hpadded.write_eq, hlengthens.width]
      exact .done (put_padded hsound long _)
  | none =>
      cases hatEnd : short.atEnd with
      | zero =>
          simp only [State.store, hlengthens.atEnd, hatEnd, hsound.write_eq, hpadded.write_eq,
            hlengthens.width]
          exact .done (put_padded hsound long _)
      | keep =>
          simp only [State.store, hlengthens.atEnd, hatEnd]
          exact .done rfl
      | fault =>
          simp only [State.store, hlengthens.atEnd, hatEnd, hsound.refuse_eq, hpadded.refuse_eq,
            Tape.pad_head, Tape.pad_current]
          exact .refused rfl

/-- With a longer tape everything is alike until the head would leave the shorter one. -/
theorem Lengthens.alike (hlengthens : long.Lengthens short) :
    short.Alike long (· = .headOverflow) (Padded short long) where
  blank := by
    rw [Padded, Tape.blank_pad, Nat.add_sub_cancel' hlengthens.tapeSize]
  read {tape other} hsound hpadded := by
    rw [hpadded, hsound.read_eq, (hlengthens.pad_sound hsound).read_eq, Tape.pad_current]
  right hsound hpadded := hpadded ▸ hlengthens.right_alike hsound
  left hsound hpadded := hpadded ▸ hlengthens.left_alike hsound
  increment hsound hpadded := hpadded ▸ hlengthens.increment_alike hsound
  decrement hsound hpadded := hpadded ▸ hlengthens.decrement_alike hsound
  store byte hsound hpadded := hpadded ▸ hlengthens.store_alike byte hsound

end Length

section Width

theorem Widens.sound (hwidens : wide.Widens narrow) (hsound : tape.Sound narrow) :
    tape.Sound wide where
  size_eq := hsound.size_eq.trans hwidens.tapeSize.symm
  head_nonneg := hsound.head_nonneg
  head_lt := by
    rw [hwidens.tapeSize]
    exact hsound.head_lt
  cell_le cell hcell :=
    Nat.le_trans (hsound.cell_le cell hcell) (Width.largest_mono hwidens.width)

theorem Widens.increment_alike (hwidens : wide.Widens narrow) (hsound : tape.Sound narrow) :
    Attempt.Alike (TapeError.OfKind (· = .dataOverflow)) Eq (tape.increment narrow)
      (tape.increment wide) := by
  rw [hsound.increment_eq, (hwidens.sound hsound).increment_eq, hwidens.overflow.1]
  by_cases hroom : tape.current < narrow.width.largest
  · have hmore := Nat.lt_of_lt_of_le hroom (Width.largest_mono hwidens.width)
    rw [if_pos hroom, if_pos hmore]
    exact .done rfl
  · rw [if_neg hroom]
    exact .excused rfl

theorem Widens.decrement_alike (hwidens : wide.Widens narrow) (hsound : tape.Sound narrow) :
    Attempt.Alike (TapeError.OfKind (· = .dataOverflow)) Eq (tape.decrement narrow)
      (tape.decrement wide) := by
  rw [hsound.decrement_eq, (hwidens.sound hsound).decrement_eq, hwidens.underflow.1,
    hwidens.underflow.2]
  exact .of_eq rfl

/-- What is read is a byte, and a byte fits cells of either width. -/
theorem Widens.store_alike (hwidens : wide.Widens narrow) (byte : Option UInt8)
    (hsound : tape.Sound narrow) :
    Attempt.Alike (TapeError.OfKind (· = .dataOverflow)) Eq (State.store narrow byte tape)
      (State.store wide byte tape) := by
  cases byte with
  | some byte =>
      rw [State.store, State.store, hsound.write_eq, hsound.write_eq, Width.wrap_byte,
        Width.wrap_byte]
      exact .done rfl
  | none =>
      cases hatEnd : narrow.atEnd with
      | zero =>
          have hzero (width : Width) : width.wrap 0 = 0 := Width.wrap_of_le_largest (Nat.zero_le _)
          simp only [State.store, hwidens.atEnd, hatEnd, hsound.write_eq, hzero]
          exact .done rfl
      | keep =>
          simp only [State.store, hwidens.atEnd, hatEnd]
          exact .done rfl
      | fault =>
          simp only [State.store, hwidens.atEnd, hatEnd]
          exact .of_eq rfl

/-- With wider cells everything is alike until a narrower one would overflow. -/
theorem Widens.alike (hwidens : wide.Widens narrow) :
    narrow.Alike wide (· = .dataOverflow) Eq :=
  alike_of_same hwidens.tapeSize hwidens.increment_alike hwidens.decrement_alike
    hwidens.store_alike

end Width

end Config

namespace Interpreter

/-- A run that does not run out of room does the same with more of it. With a longer tape it
answers alike and leaves the same state behind, up to the log, with zeros behind the cells of the
shorter tape; only a run that meets the end of the shorter tape may go on. With wider cells, if
nothing wraps, it answers alike and leaves the same state behind, up to the log; only a run in
which a narrower cell overflows may go on. -/
theorem run_agrees_with_more_room (program : Program) (input : Input) (output : Sink) :
    (∀ short long : Config, long.Lengthens short → ∀ fuel : Nat,
      Attempt.Alike (RunError.OfKind (· = .headOverflow))
        (fun bounded roomy : Interpreter =>
          bounded.state.tape.cells.size = short.tapeSize ∧
            roomy.state = { bounded.state with
              tape := bounded.state.tape.pad (long.tapeSize - short.tapeSize)
              log := roomy.state.log })
        ((new program short input output).run fuel)
        ((new program long input output).run fuel)) ∧
      ∀ narrow wide : Config, wide.Widens narrow → ∀ fuel : Nat,
        Attempt.Alike (RunError.OfKind (· = .dataOverflow))
          (fun bounded roomy : Interpreter =>
            roomy.state = { bounded.state with log := roomy.state.log })
          ((new program narrow input output).run fuel)
          ((new program wide input output).run fuel) := by
  constructor
  · intro short long hlengthens fuel
    refine (hlengthens.alike.run_alike program input output fuel).mono fun _ _ habreast => ?_
    have htape := habreast.alongside.tape
    exact ⟨htape.sound.size_eq, habreast.eq_of_tape_eq htape.related⟩
  · intro narrow wide hwidens fuel
    refine (hwidens.alike.run_alike program input output fuel).mono fun _ _ habreast => ?_
    exact habreast.eq_of_tape_eq habreast.alongside.tape.related.symm

/-- A program that fills both cells of its tape, without ever leaving it: on a longer tape the
cells behind stay zero, and in wider cells there are the same values. -/
theorem run_agrees_with_more_room_of_two_cells :
    (Config.Lengthens ⟨4, by decide, .eight, .trap, .trap, .fault⟩
        ⟨2, by decide, .eight, .trap, .trap, .fault⟩ ∧
      ∃ roomy, (new ⟨#[0x2B, 0x3E, 0x2C], #[none, none, none]⟩
            ⟨4, by decide, .eight, .trap, .trap, .fault⟩ (.ofBytes [7]) (.empty none)).run 3 =
          .done .halted roomy ∧
        roomy.state.tape = ⟨#[1, 7, 0, 0], 1⟩) ∧
      Config.Widens ⟨2, by decide, .sixteen, .trap, .trap, .fault⟩
          ⟨2, by decide, .eight, .trap, .trap, .fault⟩ ∧
        ∃ roomy, (new ⟨#[0x2B, 0x3E, 0x2C], #[none, none, none]⟩
              ⟨2, by decide, .sixteen, .trap, .trap, .fault⟩ (.ofBytes [7])
                (.empty none)).run 3 =
            .done .halted roomy ∧
          roomy.state.tape = ⟨#[1, 7], 1⟩ := by
  have hlengthens : Config.Lengthens ⟨4, by decide, .eight, .trap, .trap, .fault⟩
      ⟨2, by decide, .eight, .trap, .trap, .fault⟩ := ⟨by decide, rfl, rfl, rfl, rfl⟩
  have hwidens : Config.Widens ⟨2, by decide, .sixteen, .trap, .trap, .fault⟩
      ⟨2, by decide, .eight, .trap, .trap, .fault⟩ :=
    ⟨rfl, by decide, ⟨rfl, rfl⟩, ⟨rfl, rfl⟩, rfl⟩
  have hrun : (new ⟨#[0x2B, 0x3E, 0x2C], #[none, none, none]⟩
      ⟨2, by decide, .eight, .trap, .trap, .fault⟩ (.ofBytes [7]) (.empty none)).run 3 =
      .done .halted ⟨⟨⟨#[0x2B, 0x3E, 0x2C], #[none, none, none]⟩,
          ⟨2, by decide, .eight, .trap, .trap, .fault⟩⟩,
        ⟨3, ⟨#[1, 7], 1⟩, 3, .ofBytes [], .empty none, #[.halted 3]⟩, true⟩ := by decide +kernel
  obtain ⟨hlonger, hwider⟩ := run_agrees_with_more_room ⟨#[0x2B, 0x3E, 0x2C],
    #[none, none, none]⟩ (.ofBytes [7]) (.empty none)
  have hlong := hlonger _ _ hlengthens 3
  have hwide := hwider _ _ hwidens 3
  rw [hrun] at hlong hwide
  obtain ⟨_, hlongRun, -, hpadded⟩ := hlong.exists_of_done
  obtain ⟨_, hwideRun, hsame⟩ := hwide.exists_of_done
  exact ⟨⟨hlengthens, _, hlongRun, congrArg State.tape hpadded⟩, hwidens, _, hwideRun,
    congrArg State.tape hsame⟩

end Interpreter

end TapeMachine
