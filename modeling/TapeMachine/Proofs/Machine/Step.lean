/-
# What an instruction changes

An instruction works on one part of the state: the tape, the output, the input and the tape, or
the position alone. The number of steps and the way in which the sink is set to fail are out of
reach of every instruction, whether it is executed or refused. A step counts itself.
-/

import TapeMachine.Machine.Step

namespace TapeMachine

namespace Sink

theorem write_failure (byte : UInt8) (sink : Sink) :
    (sink.write byte).state.failure = sink.failure := by
  rw [write]
  split <;> rfl

theorem flush_failure (sink : Sink) : sink.flush.state.failure = sink.failure := by
  rw [flush]
  split <;> rfl

theorem emit_failure (byte : UInt8) (sink : Sink) :
    (sink.emit byte).state.failure = sink.failure := by
  have hwrite := write_failure byte sink
  rw [emit]
  cases hwritten : sink.write byte with
  | done _ written =>
      rw [hwritten] at hwrite
      exact (flush_failure written).trans hwrite
  | refused error written =>
      rw [hwritten] at hwrite
      exact hwrite

/-- A sink that is not set to fail takes every byte. -/
theorem emit_of_failure_eq_none (byte : UInt8) {sink : Sink} (hfailure : sink.failure = none) :
    sink.emit byte =
      .done () { sink with bytes := sink.bytes.push byte, flushes := sink.flushes + 1 } := by
  simp [emit, write, flush, error?, hfailure]

end Sink

namespace State

theorem onTape_of_done {change : Tape → Attempt TapeError Tape Unit} {state : State}
    {tape : Tape} (hchange : change state.tape = .done () tape) :
    state.onTape change = .done () { state with ip := state.ip + 1, tape } := by
  simp [onTape, hchange]

theorem onTape_of_refused {change : Tape → Attempt TapeError Tape Unit} {state : State}
    {reason : TapeError} {tape : Tape} (hchange : change state.tape = .refused reason tape) :
    state.onTape change = .refused (.ofTape reason) { state with tape } := by
  simp [onTape, hchange]

theorem onOutput_of_failure_eq_none (byte : UInt8) {state : State}
    (hfailure : state.output.failure = none) :
    state.onOutput byte = .done () { state with
      ip := state.ip + 1
      output := { state.output with
        bytes := state.output.bytes.push byte
        flushes := state.output.flushes + 1 } } := by
  simp [onOutput, Sink.emit_of_failure_eq_none byte hfailure]

theorem receive_eq (config : Config) (state : State) :
    state.receive config =
      { state with input := state.input.next.2 }.onTape (store config state.input.next.1) := rfl

/-- What an instruction leaves as it is. -/
structure Kept (before after : State) : Prop where
  steps : after.steps = before.steps
  failure : after.output.failure = before.output.failure

theorem onTape_kept (change : Tape → Attempt TapeError Tape Unit) (state : State) :
    Kept state (state.onTape change).state := by
  cases hchange : change state.tape with
  | done _ tape =>
      rw [onTape_of_done hchange]
      exact ⟨rfl, rfl⟩
  | refused reason tape =>
      rw [onTape_of_refused hchange]
      exact ⟨rfl, rfl⟩

theorem onOutput_kept (byte : UInt8) (state : State) :
    Kept state (state.onOutput byte).state := by
  have hfailure := Sink.emit_failure byte state.output
  rw [onOutput]
  cases hemit : state.output.emit byte with
  | done _ output =>
      rw [hemit] at hfailure
      exact ⟨rfl, hfailure⟩
  | refused error output =>
      rw [hemit] at hfailure
      exact ⟨rfl, hfailure⟩

theorem emit_kept (state : State) : Kept state state.emit.state := by
  rw [emit]
  cases state.tape.read with
  | error error => exact ⟨rfl, rfl⟩
  | ok value =>
      by_cases hwide : 0xFF < value
      · simp only [hwide, if_true]
        exact ⟨rfl, rfl⟩
      · simp only [hwide, if_false]
        exact onOutput_kept _ state

theorem receive_kept (config : Config) (state : State) :
    Kept state (state.receive config).state := by
  have hkept := onTape_kept (store config state.input.next.1)
    { state with input := state.input.next.2 }
  rw [receive_eq]
  exact ⟨hkept.steps, hkept.failure⟩

end State

namespace Machine

theorem jump_kept (machine : Machine) (state : State) :
    state.Kept (machine.jump state).state := by
  rw [jump]
  split <;> exact ⟨rfl, rfl⟩

theorem jumpIf_kept (machine : Machine) (condition : Nat → Bool) (state : State) :
    state.Kept (machine.jumpIf condition state).state := by
  rw [jumpIf]
  cases state.tape.read with
  | error error => exact ⟨rfl, rfl⟩
  | ok value =>
      cases hcondition : condition value with
      | true => simpa [hcondition] using jump_kept machine state
      | false =>
          simp only [hcondition]
          exact ⟨rfl, rfl⟩

theorem execute_kept (machine : Machine) (byte : UInt8) (state : State) :
    state.Kept (machine.execute byte state).state := by
  rw [execute]
  cases Instruction.ofByte? byte with
  | none => exact ⟨rfl, rfl⟩
  | some instruction =>
      cases instruction with
      | right => exact state.onTape_kept Tape.right
      | left => exact state.onTape_kept Tape.left
      | increment => exact state.onTape_kept (Tape.increment machine.config)
      | decrement => exact state.onTape_kept (Tape.decrement machine.config)
      | output => exact state.emit_kept
      | input => exact state.receive_kept machine.config
      | loopStart => exact machine.jumpIf_kept (· = 0) state
      | loopEnd => exact machine.jumpIf_kept (· ≠ 0) state

theorem executeNext_kept (machine : Machine) (state : State) :
    state.Kept (machine.executeNext state).state := by
  rw [executeNext]
  cases machine.program.fetch state.ip with
  | ok byte => exact machine.execute_kept byte state
  | error error => exact ⟨rfl, rfl⟩

/-- A step that is taken is an instruction that is executed, and is counted. -/
theorem step_eq_done_iff {machine : Machine} {state after : State} :
    machine.step state = .done () after ↔
      ∃ executed, machine.executeNext state = .done () executed ∧
        after = { executed with steps := executed.steps + 1 } := by
  rw [step]
  cases machine.executeNext state with
  | done _ executed =>
      constructor
      · intro hdone
        obtain ⟨-, rfl⟩ := Attempt.done.inj hdone
        exact ⟨executed, rfl, rfl⟩
      · rintro ⟨_, hexecuted, rfl⟩
        obtain ⟨-, rfl⟩ := Attempt.done.inj hexecuted
        rfl
  | refused reason executed =>
      constructor
      · intro hdone
        contradiction
      · rintro ⟨_, hexecuted, -⟩
        contradiction

theorem step_eq_refused_iff {machine : Machine} {state after : State} {reason : Failure} :
    machine.step state = .refused reason after ↔
      machine.executeNext state = .refused reason after := by
  rw [step]
  cases machine.executeNext state with
  | done _ executed => exact ⟨fun hrefused => by contradiction, fun hrefused => by contradiction⟩
  | refused _ _ => rfl

theorem step_steps {machine : Machine} {state after : State}
    (hstep : machine.step state = .done () after) : after.steps = state.steps + 1 := by
  obtain ⟨executed, hexecuted, rfl⟩ := step_eq_done_iff.mp hstep
  have hkept := machine.executeNext_kept state
  rw [hexecuted] at hkept
  rw [← hkept.steps]
  rfl

theorem refused_steps {machine : Machine} {state after : State} {reason : Failure}
    (hstep : machine.step state = .refused reason after) : after.steps = state.steps := by
  have hkept := machine.executeNext_kept state
  rw [step_eq_refused_iff.mp hstep] at hkept
  exact hkept.steps

end Machine

end TapeMachine
