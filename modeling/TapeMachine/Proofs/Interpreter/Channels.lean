/-
# The input and the output of a run

The bytes that a run has written are the values of the cells at which it has executed `.`, in that
order, without those that are no bytes. The bytes that it has taken from the input are one for each
`,` that it has executed, from the first on, and a `,` behind the last of them does what the
configuration says. No other instruction takes a byte or writes one.
-/

import TapeMachine.Proofs.Interpreter.Run
import TapeMachine.Proofs.Machine.Fetches

namespace TapeMachine

namespace State

/-- What comes of `,` in a state: it takes `byte`, if there is one, and leaves `unread` of the
input. -/
def taking (config : Config) (byte : Option UInt8) (unread : Input) (state : State) :
    Attempt Failure State Unit :=
  match byte, config.atEnd with
  | some byte, _ => .done () { state with
      ip := state.ip + 1, tape := state.tape.put byte.toNat, steps := state.steps + 1
      input := unread }
  | none, .zero => .done () { state with
      ip := state.ip + 1, tape := state.tape.put 0, steps := state.steps + 1, input := unread }
  | none, .keep => .done () { state with
      ip := state.ip + 1, steps := state.steps + 1, input := unread }
  | none, .fault =>
      .refused (.fault (Fault.inputExhausted state.tape.head state.tape.current))
        { state with input := unread }

end State

namespace Machine

variable {machine : Machine} {state : State}

theorem step_of_stored (hread : machine.instruction? state = some .input) {tape : Tape}
    (hstore : State.store machine.config state.input.next.1 state.tape = .done () tape) :
    machine.step state = .done () { state with
      ip := state.ip + 1, tape, steps := state.steps + 1, input := state.input.next.2 } := by
  have hreceived : ({ state with input := state.input.next.2 } : State).onTape
      (State.store machine.config state.input.next.1) = _ := State.onTape_of_done hstore
  rw [step, executeNext_of_instruction? hread]
  simp only [execute, Instruction.ofByte?_byte, State.receive_eq, hreceived]

theorem step_of_not_stored (hread : machine.instruction? state = some .input)
    {reason : TapeError}
    (hstore : State.store machine.config state.input.next.1 state.tape =
      .refused reason state.tape) :
    machine.step state = .refused (.ofTape reason) { state with input := state.input.next.2 } := by
  have hreceived : ({ state with input := state.input.next.2 } : State).onTape
      (State.store machine.config state.input.next.1) = _ := State.onTape_of_refused hstore
  rw [step, executeNext_of_instruction? hread]
  simp only [execute, Instruction.ofByte?_byte, State.receive_eq, hreceived]

/-- A step at `,` takes the next byte of the input. -/
theorem step_of_input (hsound : state.tape.Sound machine.config)
    (hread : machine.instruction? state = some .input) :
    machine.step state =
      state.taking machine.config state.input.next.1 state.input.next.2 := by
  rw [State.taking.eq_def]
  cases hnext : state.input.next.1 with
  | some byte =>
      refine step_of_stored hread ?_
      rw [hnext, State.store, hsound.write_eq, Width.wrap_byte]
  | none =>
      cases hatEnd : machine.config.atEnd with
      | zero =>
          have hzero : machine.config.width.wrap 0 = 0 := Width.wrap_of_le_largest (Nat.zero_le _)
          refine step_of_stored hread ?_
          simp only [hnext, State.store, hatEnd, hsound.write_eq, hzero]
      | keep =>
          refine step_of_stored hread ?_
          simp only [hnext, State.store, hatEnd]
      | fault =>
          have hstore : State.store machine.config state.input.next.1 state.tape =
              .refused (.fault (Fault.inputExhausted state.tape.head state.tape.current))
                state.tape := by
            simp only [hnext, State.store, hatEnd, hsound.refuse_eq]
          exact step_of_not_stored hread hstore

end Machine

namespace Interpreter

/-- The channels of the run of a loaded program. However many steps it is given, what it has
written are the cells at which it has executed `.`, in that order and as far as they are bytes;
with cells of eight bits that is one byte for each `.`. What is left of its input is what comes
behind as many bytes as it has executed `,`. Each `,` takes the byte of the input that has its
number, or does at the end of the input what the configuration says, and every other instruction
leaves the input as it is. -/
theorem run_reads_and_writes_in_order {source : Source} {encoding : Encoding} {program : Program}
    (hload : Program.load source encoding = .ok program) (config : Config) (input : List UInt8)
    {output : Sink} (hsink : output.failure = none) (fuel : Nat) :
    let machine : Machine := ⟨program, config⟩
    let start := machine.initial (.ofBytes input) output
    let last := ((new program config (.ofBytes input) output).run fuel).state.state
    last.output.bytes.toList = output.bytes.toList ++
        (machine.executions .output fuel start).filterMap State.byte? ∧
      (config.width = .eight →
        last.output.bytes.size =
          output.bytes.size + (machine.executions .output fuel start).length) ∧
      last.input = .ofBytes (input.drop (machine.executions .input fuel start).length) ∧
      (∀ (number : Nat) (state : State),
        (machine.executions .input fuel start)[number]? = some state →
          machine.step state =
            state.taking config input[number]? (.ofBytes (input.drop (number + 1)))) ∧
      ∀ state ∈ machine.fetches fuel start, machine.instruction? state ≠ some .input →
        (machine.step state).state.input = state.input := by
  intro machine start last
  have hclosed : machine.program.Closed := (Program.loaded_of_load hload).1.closed
  have hstart : start.InRange machine := machine.initial_inRange _ output
  obtain ⟨log, hlast⟩ : ∃ log, last = { (machine.advance fuel start).state with log } :=
    exists_run_new_state_eq_advance program config (.ofBytes input) output fuel
  have hwritten : last.output.bytes.toList = output.bytes.toList ++
      (machine.executions .output fuel start).filterMap State.byte? := by
    rw [hlast, ← Machine.filterMap_written?]
    exact Machine.advance_output hclosed fuel start hstart hsink
  refine ⟨hwritten, ?_, ?_, ?_, ?_⟩
  · intro hwidth
    have hbyte : ∀ state ∈ machine.executions .output fuel start, state.byte?.isSome := by
      intro state hstate
      obtain ⟨count, hreaches⟩ :=
        Machine.exists_reaches_of_mem_fetches (List.mem_of_mem_filter hstate)
      have hle := (hreaches.inRange hclosed hstart).tape.current_le
      rw [hwidth] at hle
      have hfits : state.tape.current ≤ 0xFF := hle
      rw [State.byte?, if_pos hfits]
      rfl
    rw [← Array.length_toList, hwritten, List.length_append, Array.length_toList,
      List.filterMap_length_eq_length.mpr hbyte]
  · rw [hlast]
    exact machine.advance_input fuel start rfl
  · intro number state hstate
    obtain ⟨count, -, hreaches, -, hread, hnumber⟩ := Machine.exists_reaches_of_fetched hstate
    have hinput := machine.advance_input count start rfl
    rw [hreaches.advance_state, Machine.executions, hnumber] at hinput
    rw [Machine.step_of_input (hreaches.inRange hclosed hstart).tape (of_decide_eq_true hread),
      hinput, Input.next_ofBytes, List.head?_drop, List.drop_drop]
  · intro state _ hother
    rw [machine.step_input, if_neg hother]

/-- A program that writes the byte it has read, takes one from a zero cell, writes that cell and
finds no other byte to read. With sixteen bits the cell is no byte and is not written, with eight
bits it is. -/
theorem run_reads_and_writes_in_order_of_wide_cell :
    Program.load (.bytes [0x2C, 0x2E, 0x3E, 0x2D, 0x2E, 0x2C]) .utf8 =
        .ok ⟨#[0x2C, 0x2E, 0x3E, 0x2D, 0x2E, 0x2C], #[none, none, none, none, none, none]⟩ ∧
      ((new ⟨#[0x2C, 0x2E, 0x3E, 0x2D, 0x2E, 0x2C], #[none, none, none, none, none, none]⟩
          ⟨2, by decide, .sixteen, .wrap, .wrap, .fault⟩ (.ofBytes [65])
            (.empty none)).run 9).state.state.output.bytes.toList = [65] ∧
      ((new ⟨#[0x2C, 0x2E, 0x3E, 0x2D, 0x2E, 0x2C], #[none, none, none, none, none, none]⟩
          ⟨2, by decide, .eight, .wrap, .wrap, .fault⟩ (.ofBytes [65])
            (.empty none)).run 9).state.state.output.bytes.size = 2 ∧
      Machine.step
          ⟨⟨#[0x2C, 0x2E, 0x3E, 0x2D, 0x2E, 0x2C], #[none, none, none, none, none, none]⟩,
            ⟨2, by decide, .eight, .wrap, .wrap, .fault⟩⟩
          ⟨5, ⟨#[65, 255], 1⟩, 5, .ofBytes [], ⟨#[65, 255], 2, none⟩, #[]⟩ =
        .refused (.fault (Fault.inputExhausted 1 255))
          ⟨5, ⟨#[65, 255], 1⟩, 5, .ofBytes [], ⟨#[65, 255], 2, none⟩, #[]⟩ := by
  have hload : Program.load (.bytes [0x2C, 0x2E, 0x3E, 0x2D, 0x2E, 0x2C]) .utf8 =
      .ok ⟨#[0x2C, 0x2E, 0x3E, 0x2D, 0x2E, 0x2C], #[none, none, none, none, none, none]⟩ := by
    decide +kernel
  obtain ⟨hwide, -⟩ := run_reads_and_writes_in_order hload
    ⟨2, by decide, .sixteen, .wrap, .wrap, .fault⟩ [65] (rfl : (Sink.empty none).failure = none) 9
  obtain ⟨-, hnarrow, -, hread, -⟩ := run_reads_and_writes_in_order hload
    ⟨2, by decide, .eight, .wrap, .wrap, .fault⟩ [65] (rfl : (Sink.empty none).failure = none) 9
  refine ⟨hload, hwide.trans ?_, (hnarrow rfl).trans ?_, hread 1 _ ?_⟩ <;> decide +kernel

end Interpreter

end TapeMachine
