/-
# What a single instruction leaves alone

A refused instruction has changed nothing of the machine. The position, the tape, the number of
steps and the log are as they were, and so is the sink, unless it has taken a byte and then failed
to flush it. Only a chunk of the input may be gone. An executed instruction changes no cell but the
one at the head, and none at all if it moves the head.

Nothing is supposed of the state. The position and the head may stand anywhere, the jump table may
hold anything, and the byte need not be the one at the position.
-/

import TapeMachine.Interpreter
import TapeMachine.Proofs.Machine.Step

namespace TapeMachine

namespace Tape

/-- The index of the cell at the head, if the head stands at one. -/
def address? (tape : Tape) : Option Nat :=
  (Index.resolve tape.cells.size tape.head).map Fin.val

/-- What an operation may change of a tape: the place of the head, or else the cell at the head. -/
structure Touches (before after : Tape) : Prop where
  size_eq : after.cells.size = before.cells.size
  cell_eq : ∀ index, before.address? ≠ some index → after.cells[index]? = before.cells[index]?
  head_or_cells : after.head = before.head ∨ after.cells = before.cells

/-- An attempt that touches the tape, or is refused and leaves it as it was. -/
def TouchesOrKeeps (tape : Tape) : Attempt TapeError Tape Unit → Prop
  | .done _ after => tape.Touches after
  | .refused _ after => after = tape

variable {tape : Tape}

theorem Touches.of_cells_eq {after : Tape} (hcells : after.cells = tape.cells) :
    tape.Touches after where
  size_eq := by rw [hcells]
  cell_eq _ _ := by rw [hcells]
  head_or_cells := .inr hcells

theorem write_touchesOrKeeps (width : Width) (value : Int) (tape : Tape) :
    tape.TouchesOrKeeps (tape.write width value) := by
  rw [write]
  cases hresolve : Index.resolve tape.cells.size tape.head with
  | none => exact rfl
  | some index =>
      refine ⟨Array.size_set index.isLt, fun other hother => ?_, .inl rfl⟩
      have hne : index.val ≠ other := by
        rintro rfl
        exact hother (by rw [address?, hresolve, Option.map_some])
      exact Array.getElem?_set_ne index.isLt hne

/-- Refusing keeps the tape, whether there is a cell to show or not. -/
theorem refuse_touchesOrKeeps (fault : Int → Nat → Fault) (tape : Tape) :
    tape.TouchesOrKeeps (tape.refuse fault) := by
  rw [refuse]
  cases tape.read <;> exact rfl

theorem right_touchesOrKeeps (tape : Tape) : tape.TouchesOrKeeps tape.right := by
  rw [right]
  by_cases hlast : (tape.cells.size : Int) - 1 ≤ tape.head
  · rw [if_pos hlast]
    exact refuse_touchesOrKeeps _ tape
  · rw [if_neg hlast]
    exact .of_cells_eq rfl

theorem left_touchesOrKeeps (tape : Tape) : tape.TouchesOrKeeps tape.left := by
  rw [left]
  by_cases hfirst : tape.head = 0
  · rw [if_pos hfirst]
    exact refuse_touchesOrKeeps _ tape
  · rw [if_neg hfirst]
    exact .of_cells_eq rfl

theorem increment_touchesOrKeeps (config : Config) (tape : Tape) :
    tape.TouchesOrKeeps (tape.increment config) := by
  rw [increment]
  cases tape.read with
  | error error => exact rfl
  | ok value =>
      by_cases hfull : value = config.width.largest ∧ config.overflow = .trap
      · simp only [hfull, and_self, if_true]
        exact rfl
      · simp only [hfull, if_false]
        exact write_touchesOrKeeps _ _ tape

theorem decrement_touchesOrKeeps (config : Config) (tape : Tape) :
    tape.TouchesOrKeeps (tape.decrement config) := by
  rw [decrement]
  cases tape.read with
  | error error => exact rfl
  | ok value =>
      by_cases hzero : value = 0 ∧ config.underflow = .trap
      · simp only [hzero, and_self, if_true]
        exact rfl
      · simp only [hzero, if_false]
        exact write_touchesOrKeeps _ _ tape

theorem store_touchesOrKeeps (config : Config) (byte : Option UInt8) (tape : Tape) :
    tape.TouchesOrKeeps (State.store config byte tape) := by
  cases byte with
  | some byte => exact write_touchesOrKeeps _ _ tape
  | none =>
      cases hpolicy : config.atEnd with
      | zero =>
          simp only [State.store, hpolicy]
          exact write_touchesOrKeeps _ _ tape
      | keep =>
          simp only [State.store, hpolicy]
          exact .of_cells_eq rfl
      | fault =>
          simp only [State.store, hpolicy]
          exact refuse_touchesOrKeeps _ tape

end Tape

namespace Sink

variable {sink after : Sink} {byte : UInt8} {error : SinkError}

theorem write_eq_refused (hwrite : sink.write byte = .refused error after) : after = sink := by
  rw [write] at hwrite
  split at hwrite
  · exact (Attempt.refused.inj hwrite).2.symm
  · contradiction

theorem flush_eq_refused (hflush : sink.flush = .refused error after) : after = sink := by
  rw [flush] at hflush
  split at hflush
  · exact (Attempt.refused.inj hflush).2.symm
  · contradiction

/-- A sink that fails has taken nothing, or has taken the byte and fails to flush it. -/
theorem emit_eq_refused (hemit : sink.emit byte = .refused error after) :
    after = sink ∨ sink.write byte = .done () after ∧ after.flush = .refused error after := by
  rw [emit] at hemit
  cases hwrite : sink.write byte with
  | done _ written =>
      rw [hwrite] at hemit
      obtain rfl := flush_eq_refused hemit
      exact .inr ⟨rfl, hemit⟩
  | refused reason written =>
      rw [hwrite] at hemit
      obtain ⟨-, rfl⟩ := Attempt.refused.inj hemit
      exact .inl (write_eq_refused hwrite)

end Sink

namespace State

/-- What a refused instruction leaves behind: the state before it, but for the input and for a byte
that the sink has taken and fails to flush. -/
structure Undone (before : State) (reason : Failure) (after : State) : Prop where
  ip : after.ip = before.ip
  tape : after.tape = before.tape
  steps : after.steps = before.steps
  log : after.log = before.log
  output : after.output = before.output ∨
    ∃ error byte, reason = .output error ∧ before.output.write byte = .done () after.output ∧
      after.output.flush = .refused error after.output

/-- An attempt that touches the tape, or is refused and undone. -/
def TouchesOrUndoes (state : State) : Attempt Failure State Unit → Prop
  | .done _ after => state.tape.Touches after.tape
  | .refused reason after => state.Undone reason after

theorem Undone.refl (state : State) (reason : Failure) : state.Undone reason state :=
  ⟨rfl, rfl, rfl, rfl, .inl rfl⟩

theorem onTape_touchesOrUndoes {change : Tape → Attempt TapeError Tape Unit} {state : State}
    (hchange : state.tape.TouchesOrKeeps (change state.tape)) :
    state.TouchesOrUndoes (state.onTape change) := by
  cases hattempt : change state.tape with
  | done _ tape =>
      rw [hattempt] at hchange
      rw [onTape_of_done hattempt]
      exact hchange
  | refused reason tape =>
      rw [hattempt] at hchange
      obtain rfl : tape = state.tape := hchange
      rw [onTape_of_refused hattempt]
      exact .refl state _

theorem onOutput_touchesOrUndoes (byte : UInt8) (state : State) :
    state.TouchesOrUndoes (state.onOutput byte) := by
  rw [onOutput]
  cases hemit : state.output.emit byte with
  | done _ output => exact .of_cells_eq rfl
  | refused error output =>
      refine ⟨rfl, rfl, rfl, rfl, ?_⟩
      exact (Sink.emit_eq_refused hemit).imp_right fun hflush => ⟨error, byte, rfl, hflush⟩

theorem emit_touchesOrUndoes (state : State) : state.TouchesOrUndoes state.emit := by
  rw [emit]
  cases state.tape.read with
  | error error => exact .refl state _
  | ok value =>
      by_cases hwide : 0xFF < value
      · simp only [hwide, if_true]
        exact .of_cells_eq rfl
      · simp only [hwide, if_false]
        exact onOutput_touchesOrUndoes _ state

/-- What has been taken from the input is not given back, but it is not looked at either. -/
theorem receive_touchesOrUndoes (config : Config) (state : State) :
    state.TouchesOrUndoes (state.receive config) := by
  have htape := @onTape_touchesOrUndoes _ { state with input := state.input.next.2 }
    (Tape.store_touchesOrKeeps config state.input.next.1 state.tape)
  rw [receive_eq]
  cases hattempt : ({ state with input := state.input.next.2 } : State).onTape
      (store config state.input.next.1) with
  | done _ after =>
      rw [hattempt] at htape
      exact htape
  | refused reason after =>
      rw [hattempt] at htape
      exact ⟨htape.ip, htape.tape, htape.steps, htape.log, htape.output⟩

end State

namespace Machine

theorem jumpIf_touchesOrUndoes (machine : Machine) (condition : Nat → Bool) (state : State) :
    state.TouchesOrUndoes (machine.jumpIf condition state) := by
  rw [jumpIf]
  cases state.tape.read with
  | error error => exact .refl state _
  | ok value =>
      cases hcondition : condition value with
      | false =>
          simp only [hcondition]
          exact .of_cells_eq rfl
      | true =>
          simp only [hcondition, if_true, jump]
          cases machine.program.target state.ip with
          | ok target => exact .of_cells_eq rfl
          | error error => exact .refl state _

theorem execute_touchesOrUndoes (machine : Machine) (byte : UInt8) (state : State) :
    state.TouchesOrUndoes (machine.execute byte state) := by
  rw [execute]
  cases Instruction.ofByte? byte with
  | none => exact .of_cells_eq rfl
  | some instruction =>
      cases instruction with
      | right => exact State.onTape_touchesOrUndoes (Tape.right_touchesOrKeeps _)
      | left => exact State.onTape_touchesOrUndoes (Tape.left_touchesOrKeeps _)
      | increment =>
          exact State.onTape_touchesOrUndoes (Tape.increment_touchesOrKeeps machine.config _)
      | decrement =>
          exact State.onTape_touchesOrUndoes (Tape.decrement_touchesOrKeeps machine.config _)
      | output => exact state.emit_touchesOrUndoes
      | input => exact state.receive_touchesOrUndoes machine.config
      | loopStart => exact machine.jumpIf_touchesOrUndoes (· = 0) state
      | loopEnd => exact machine.jumpIf_touchesOrUndoes (· ≠ 0) state

end Machine

namespace Interpreter

/-- Executing a byte outside a run, in any state. If it is refused, everything but the input is as
it was, unless the sink has taken a byte and it is its flush that has failed. If it is executed, no
cell differs but the one at the head, and not both the head and a cell do. -/
theorem execute_touches_one_place_or_nothing (interpreter : Interpreter) (byte : UInt8) :
    match interpreter.execute byte with
    | .refused reason after =>
        after.state.ip = interpreter.state.ip ∧
          after.state.tape.head = interpreter.state.tape.head ∧
          after.state.tape.cells = interpreter.state.tape.cells ∧
          after.state.steps = interpreter.state.steps ∧
          after.state.log = interpreter.state.log ∧
          (after.state.output = interpreter.state.output ∨
            ∃ error value, reason = .output error ∧
              interpreter.state.output.write value = .done () after.state.output ∧
              after.state.output.flush = .refused error after.state.output)
    | .done _ after =>
        after.state.steps = interpreter.state.steps ∧
          after.state.tape.cells.size = interpreter.state.tape.cells.size ∧
          (∀ index, interpreter.state.tape.address? ≠ some index →
            after.state.tape.cells[index]? = interpreter.state.tape.cells[index]?) ∧
          (after.state.tape.head = interpreter.state.tape.head ∨
            after.state.tape.cells = interpreter.state.tape.cells) := by
  obtain ⟨machine, state, spent⟩ := interpreter
  have htouches := machine.execute_touchesOrUndoes byte state
  have hkept := machine.execute_kept byte state
  rw [execute]
  cases hexecute : machine.execute byte state with
  | refused reason after =>
      rw [hexecute] at htouches
      obtain ⟨hip, htape, hsteps, hlog, houtput⟩ := htouches
      exact ⟨hip, congrArg Tape.head htape, congrArg Tape.cells htape, hsteps, hlog, houtput⟩
  | done _ after =>
      rw [hexecute] at htouches hkept
      exact ⟨hkept.steps, htouches.size_eq, htouches.cell_eq, htouches.head_or_cells⟩

/-- A byte that is written but not flushed, from a tape whose head stands in front of its cells and
at a position in front of the code. -/
theorem execute_touches_one_place_or_nothing_of_failing_flush :
    ∃ after : Interpreter,
      execute 0x2E ⟨⟨⟨#[], #[]⟩, ⟨2, by decide, .eight, .wrap, .trap, .zero⟩⟩,
          ⟨-7, ⟨#[0, 65], -1⟩, 3, .empty, .empty (some ⟨.flush, 0, .system 28⟩), #[]⟩, true⟩ =
        .refused (.output (.system 28)) after ∧
      after.state.output.bytes = #[65] ∧ after.state.ip = -7 ∧ after.state.tape.head = -1 ∧
      after.state.tape.cells = #[0, 65] ∧ after.state.steps = 3 := by
  have hexecute : execute 0x2E ⟨⟨⟨#[], #[]⟩, ⟨2, by decide, .eight, .wrap, .trap, .zero⟩⟩,
        ⟨-7, ⟨#[0, 65], -1⟩, 3, .empty, .empty (some ⟨.flush, 0, .system 28⟩), #[]⟩, true⟩ =
      .refused (.output (.system 28)) ⟨⟨⟨#[], #[]⟩, ⟨2, by decide, .eight, .wrap, .trap, .zero⟩⟩,
        ⟨-7, ⟨#[0, 65], -1⟩, 3, .empty, ⟨#[65], 0, some ⟨.flush, 0, .system 28⟩⟩, #[]⟩, true⟩ :=
    rfl
  have hplaces := execute_touches_one_place_or_nothing ⟨⟨⟨#[], #[]⟩,
    ⟨2, by decide, .eight, .wrap, .trap, .zero⟩⟩,
    ⟨-7, ⟨#[0, 65], -1⟩, 3, .empty, .empty (some ⟨.flush, 0, .system 28⟩), #[]⟩, true⟩ 0x2E
  rw [hexecute] at hplaces
  obtain ⟨hip, hhead, hcells, hsteps, -, -⟩ := hplaces
  exact ⟨_, hexecute, rfl, hip, hhead, hcells, hsteps⟩

end Interpreter

end TapeMachine
