/-
# What a fault tells

An instruction that meets a fault has changed nothing but the input, and not even that if the
input is steady: the state is the one in which the instruction was fetched. The fault shows the
head and the current cell of that state. Which instruction it was, the cell and the policies decide
its kind.
-/

import TapeMachine.Proofs.Machine.Channels

namespace TapeMachine

namespace Tape

/-- Why an instruction meets a fault on a tape, and which fault that is. -/
inductive Meets (config : Config) (tape : Tape) (cell : Nat) : Instruction → Fault → Prop
  | headOverflow (hlast : (tape.cells.size : Int) - 1 ≤ tape.head) :
      Meets config tape cell .right (Fault.headOverflow tape.cells.size tape.head cell)
  | headUnderflow (hfirst : tape.head = 0) :
      Meets config tape cell .left (Fault.headUnderflow tape.head cell)
  | dataOverflow (hfull : cell = config.width.largest) (htrap : config.overflow = .trap) :
      Meets config tape cell .increment
        (Fault.dataOverflow config.width.largest tape.head cell)
  | dataUnderflow (hzero : cell = 0) (htrap : config.underflow = .trap) :
      Meets config tape cell .decrement (Fault.dataUnderflow tape.head cell)
  | inputExhausted (hpolicy : config.atEnd = .fault) :
      Meets config tape cell .input (Fault.inputExhausted tape.head cell)

/-- The tape is as it was, and the fault is one that the instruction meets on it. -/
structure Blocks (config : Config) (tape : Tape) (instruction : Instruction) (fault : Fault)
    (after : Tape) : Prop where
  unchanged : after = tape
  meets : ∃ cell, tape.read = .ok cell ∧ Meets config tape cell instruction fault

variable {config : Config} {tape after : Tape} {fault : Fault}

theorem refuse_eq_fault {make : Int → Nat → Fault}
    (hrefuse : tape.refuse make = .refused (.fault fault) after) :
    after = tape ∧ ∃ cell, tape.read = .ok cell ∧ fault = make tape.head cell := by
  rw [refuse] at hrefuse
  cases hread : tape.read with
  | error error =>
      rw [hread] at hrefuse
      obtain ⟨hreason, -⟩ := Attempt.refused.inj hrefuse
      contradiction
  | ok cell =>
      rw [hread] at hrefuse
      obtain ⟨hreason, rfl⟩ := Attempt.refused.inj hrefuse
      exact ⟨rfl, cell, rfl, (TapeError.fault.inj hreason).symm⟩

theorem write_ne_fault (width : Width) (value : Int) :
    tape.write width value ≠ .refused (.fault fault) after := by
  intro hwrite
  rw [write] at hwrite
  split at hwrite
  · contradiction
  · obtain ⟨hreason, -⟩ := Attempt.refused.inj hwrite
    contradiction

theorem right_blocks (hright : tape.right = .refused (.fault fault) after) :
    Blocks config tape .right fault after := by
  rw [right] at hright
  by_cases hlast : (tape.cells.size : Int) - 1 ≤ tape.head
  · rw [if_pos hlast] at hright
    obtain ⟨rfl, cell, hread, rfl⟩ := refuse_eq_fault hright
    exact ⟨rfl, cell, hread, .headOverflow hlast⟩
  · rw [if_neg hlast] at hright
    contradiction

theorem left_blocks (hleft : tape.left = .refused (.fault fault) after) :
    Blocks config tape .left fault after := by
  rw [left] at hleft
  by_cases hfirst : tape.head = 0
  · rw [if_pos hfirst] at hleft
    obtain ⟨rfl, cell, hread, rfl⟩ := refuse_eq_fault hleft
    exact ⟨rfl, cell, hread, .headUnderflow hfirst⟩
  · rw [if_neg hfirst] at hleft
    contradiction

theorem increment_blocks (hincrement : tape.increment config = .refused (.fault fault) after) :
    Blocks config tape .increment fault after := by
  rw [increment] at hincrement
  cases hread : tape.read with
  | error error =>
      rw [hread] at hincrement
      obtain ⟨hreason, -⟩ := Attempt.refused.inj hincrement
      contradiction
  | ok cell =>
      simp only [hread] at hincrement
      by_cases hfull : cell = config.width.largest ∧ config.overflow = .trap
      · rw [if_pos hfull] at hincrement
        obtain ⟨hreason, rfl⟩ := Attempt.refused.inj hincrement
        obtain rfl := TapeError.fault.inj hreason
        exact ⟨rfl, cell, hread, .dataOverflow hfull.1 hfull.2⟩
      · rw [if_neg hfull] at hincrement
        exact absurd hincrement (write_ne_fault _ _)

theorem decrement_blocks (hdecrement : tape.decrement config = .refused (.fault fault) after) :
    Blocks config tape .decrement fault after := by
  rw [decrement] at hdecrement
  cases hread : tape.read with
  | error error =>
      rw [hread] at hdecrement
      obtain ⟨hreason, -⟩ := Attempt.refused.inj hdecrement
      contradiction
  | ok cell =>
      simp only [hread] at hdecrement
      by_cases hzero : cell = 0 ∧ config.underflow = .trap
      · rw [if_pos hzero] at hdecrement
        obtain ⟨hreason, rfl⟩ := Attempt.refused.inj hdecrement
        obtain rfl := TapeError.fault.inj hreason
        exact ⟨rfl, cell, hread, .dataUnderflow hzero.1 hzero.2⟩
      · rw [if_neg hzero] at hdecrement
        exact absurd hdecrement (write_ne_fault _ _)

/-- Only the end of the input makes reading meet a fault. -/
theorem store_blocks {byte : Option UInt8}
    (hstore : State.store config byte tape = .refused (.fault fault) after) :
    byte = none ∧ Blocks config tape .input fault after := by
  cases byte with
  | some byte => exact absurd hstore (write_ne_fault _ _)
  | none =>
      cases hpolicy : config.atEnd with
      | zero =>
          simp only [State.store, hpolicy] at hstore
          exact absurd hstore (write_ne_fault _ _)
      | keep =>
          simp only [State.store, hpolicy] at hstore
          contradiction
      | fault =>
          simp only [State.store, hpolicy] at hstore
          obtain ⟨rfl, cell, hread, rfl⟩ := refuse_eq_fault hstore
          exact ⟨rfl, rfl, cell, hread, .inputExhausted hpolicy⟩

end Tape

namespace State

theorem onTape_eq_fault {change : Tape → Attempt TapeError Tape Unit} {state after : State}
    {fault : Fault} (hrefused : state.onTape change = .refused (.fault fault) after) :
    ∃ tape, change state.tape = .refused (.fault fault) tape ∧ after = { state with tape } := by
  cases hchange : change state.tape with
  | done _ tape =>
      rw [onTape_of_done hchange] at hrefused
      contradiction
  | refused reason tape =>
      rw [onTape_of_refused hchange] at hrefused
      obtain ⟨hreason, rfl⟩ := Attempt.refused.inj hrefused
      cases reason with
      | fault found =>
          obtain rfl := Failure.fault.inj hreason
          exact ⟨tape, rfl, rfl⟩
      | outOfBounds error => contradiction

theorem emit_ne_fault {state after : State} {fault : Fault} :
    state.emit ≠ .refused (.fault fault) after := by
  intro hemit
  rw [emit] at hemit
  cases hread : state.tape.read with
  | error error =>
      rw [hread] at hemit
      obtain ⟨hreason, -⟩ := Attempt.refused.inj hemit
      contradiction
  | ok value =>
      simp only [hread] at hemit
      by_cases hwide : 0xFF < value
      · rw [if_pos hwide] at hemit
        contradiction
      · rw [if_neg hwide, onOutput] at hemit
        cases hsink : state.output.emit (UInt8.ofNat value) with
        | done _ output =>
            rw [hsink] at hemit
            contradiction
        | refused error output =>
            rw [hsink] at hemit
            obtain ⟨hreason, -⟩ := Attempt.refused.inj hemit
            contradiction

end State

namespace Machine

variable {machine : Machine} {state after : State} {fault : Fault}

theorem jumpIf_ne_fault {condition : Nat → Bool} :
    machine.jumpIf condition state ≠ .refused (.fault fault) after := by
  intro hjump
  rw [jumpIf] at hjump
  cases hread : state.tape.read with
  | error error =>
      rw [hread] at hjump
      obtain ⟨hreason, -⟩ := Attempt.refused.inj hjump
      contradiction
  | ok value =>
      simp only [hread] at hjump
      by_cases hcondition : condition value = true
      · rw [if_pos hcondition, jump] at hjump
        cases htarget : machine.program.target state.ip with
        | ok target =>
            rw [htarget] at hjump
            contradiction
        | error error =>
            rw [htarget] at hjump
            obtain ⟨hreason, -⟩ := Attempt.refused.inj hjump
            contradiction
      · rw [if_neg hcondition] at hjump
        contradiction

/-- The instruction that is about to be executed meets a fault. -/
structure Blocked (machine : Machine) (state : State) (instruction : Instruction)
    (fault : Fault) : Prop where
  fetched : machine.program.fetch state.ip = .ok instruction.byte
  meets : ∃ cell, state.tape.read = .ok cell ∧
    Tape.Meets machine.config state.tape cell instruction fault
  exhausted : instruction = .input → state.input.Exhausted

/-- A fault on a change of the tape leaves everything as it was. -/
theorem blocked_onTape {instruction : Instruction}
    {change : Tape → Attempt TapeError Tape Unit}
    (hfetch : machine.program.fetch state.ip = .ok instruction.byte)
    (hinput : instruction ≠ .input)
    (hblocks : ∀ tape, change state.tape = .refused (.fault fault) tape →
      Tape.Blocks machine.config state.tape instruction fault tape)
    (hrefused : state.onTape change = .refused (.fault fault) after) :
    after = state ∧ machine.Blocked state instruction fault := by
  obtain ⟨tape, hchange, rfl⟩ := State.onTape_eq_fault hrefused
  obtain ⟨rfl, hmeets⟩ := hblocks tape hchange
  exact ⟨rfl, hfetch, hmeets, fun heq => absurd heq hinput⟩

theorem blocked_receive (hsteady : state.input.Steady)
    (hfetch : machine.program.fetch state.ip = .ok Instruction.input.byte)
    (hrefused : state.receive machine.config = .refused (.fault fault) after) :
    after = state ∧ machine.Blocked state .input fault := by
  rw [State.receive_eq] at hrefused
  obtain ⟨tape, hstore, rfl⟩ := State.onTape_eq_fault hrefused
  obtain ⟨hend, rfl, hmeets⟩ := Tape.store_blocks hstore
  have hexhausted := hsteady.exhausted hend
  refine ⟨?_, hfetch, hmeets, fun _ => hexhausted⟩
  rw [hexhausted.next]

/-- An instruction that meets a fault leaves the state as it was when it was fetched. -/
theorem blocked_of_step (hsteady : state.input.Steady)
    (hstep : machine.step state = .refused (.fault fault) after) :
    after = state ∧ ∃ instruction, machine.Blocked state instruction fault := by
  rw [step_eq_refused_iff, executeNext] at hstep
  cases hfetch : machine.program.fetch state.ip with
  | error error =>
      rw [hfetch] at hstep
      obtain ⟨hreason, -⟩ := Attempt.refused.inj hstep
      contradiction
  | ok byte =>
      simp only [hfetch, execute] at hstep
      cases hinstruction : Instruction.ofByte? byte with
      | none =>
          rw [hinstruction] at hstep
          contradiction
      | some instruction =>
          obtain rfl := Instruction.ofByte?_eq_some_iff.mp hinstruction
          simp only [hinstruction] at hstep
          suffices hblocked : after = state ∧ machine.Blocked state instruction fault from
            ⟨hblocked.1, instruction, hblocked.2⟩
          cases instruction with
          | right =>
              exact blocked_onTape hfetch (by decide) (fun _ => Tape.right_blocks) hstep
          | left => exact blocked_onTape hfetch (by decide) (fun _ => Tape.left_blocks) hstep
          | increment =>
              exact blocked_onTape hfetch (by decide) (fun _ => Tape.increment_blocks) hstep
          | decrement =>
              exact blocked_onTape hfetch (by decide) (fun _ => Tape.decrement_blocks) hstep
          | output => exact absurd hstep State.emit_ne_fault
          | input => exact blocked_receive hsteady hfetch hstep
          | loopStart | loopEnd => exact absurd hstep jumpIf_ne_fault

end Machine

end TapeMachine
