/-
# Exchanged channels

Whatever a state has for its input and its output, an instruction does the same to everything else.
Only `,` looks at the input, and it looks at its next byte alone; only `.` looks at the output, and
it looks at nothing but whether its byte is taken. So channels can be exchanged before a step or
behind it, and so can the number of the steps, at which no instruction looks.
-/

import TapeMachine.Proofs.Machine.Fetches

namespace TapeMachine

/-- Change the state that an attempt leaves behind. -/
def Attempt.map {ε σ τ α : Type} (change : σ → τ) : Attempt ε σ α → Attempt ε τ α
  | .done value state => .done value (change state)
  | .refused reason state => .refused reason (change state)

theorem Attempt.map_id {ε σ α : Type} (attempt : Attempt ε σ α) : attempt.map id = attempt := by
  cases attempt <;> rfl

/-- Change the state to which a run has come. -/
def Progress.map (change : State → State) : Progress → Progress
  | .running state => .running (change state)
  | .halted state => .halted (change state)
  | .failed reason state => .failed reason (change state)

namespace State

/-- The state with its channels exchanged. -/
def exchange (input : Input → Input) (output : Sink → Sink) (state : State) : State :=
  { state with input := input state.input, output := output state.output }

/-- The state with another input. -/
def withInput (input : Input) : State → State := exchange (fun _ => input) id

/-- The state with another output. -/
def mapOutput (output : Sink → Sink) : State → State := exchange id output

/-- The state with another number of steps. -/
def recount (steps : Nat) (state : State) : State := { state with steps }

/-- The state with everything exchanged that no change of the tape and no jump looks at. -/
def refit (steps : Nat → Nat) (input : Input → Input) (output : Sink → Sink) (state : State) :
    State :=
  { state with
    steps := steps state.steps, input := input state.input, output := output state.output }

section Refit

variable (steps : Nat → Nat) (input : Input → Input) (output : Sink → Sink)

theorem onTape_refit (change : Tape → Attempt TapeError Tape Unit) (state : State) :
    (state.refit steps input output).onTape change =
      (state.onTape change).map (refit steps input output) := by
  cases hchange : change state.tape with
  | done _ tape =>
      have hother : change (state.refit steps input output).tape = .done () tape := hchange
      rw [onTape_of_done hchange, onTape_of_done hother]
      rfl
  | refused reason tape =>
      have hother : change (state.refit steps input output).tape = .refused reason tape := hchange
      rw [onTape_of_refused hchange, onTape_of_refused hother]
      rfl

variable {output} {state : State}

theorem onOutput_refit {byte : UInt8}
    (hemit : (output state.output).emit byte = (state.output.emit byte).map output) :
    (state.refit steps input output).onOutput byte =
      (state.onOutput byte).map (refit steps input output) := by
  have houtput : (state.refit steps input output).output.emit byte =
      (state.output.emit byte).map output := hemit
  rw [onOutput, onOutput, houtput]
  cases state.output.emit byte <;> rfl

/-- Writing is the same on another output that takes the byte or refuses it just as well. -/
theorem emit_refit
    (hemit : ∀ value, state.tape.read = .ok value → value ≤ 0xFF →
      (output state.output).emit (UInt8.ofNat value) =
        (state.output.emit (UInt8.ofNat value)).map output) :
    (state.refit steps input output).emit = state.emit.map (refit steps input output) := by
  have htape : (state.refit steps input output).tape.read = state.tape.read := rfl
  rw [emit, emit, htape]
  cases hread : state.tape.read with
  | error error => rfl
  | ok value =>
      by_cases hwide : 0xFF < value
      · simp only [hwide, if_true]
        rfl
      · simp only [hwide, if_false]
        exact onOutput_refit steps input (hemit value hread (Nat.le_of_not_lt hwide))

end Refit

variable {state : State}

/-- Reading is the same from another input whose next byte does the same to the tape. -/
theorem receive_withInput {config : Config} {input : Input}
    (hstore : store config input.next.1 state.tape =
      store config state.input.next.1 state.tape) :
    (state.withInput input).receive config =
      (state.receive config).map (withInput input.next.2) := by
  rw [receive_eq, receive_eq]
  cases hstored : store config state.input.next.1 state.tape with
  | done _ tape =>
      have hread : ({ state with input := state.input.next.2 } : State).onTape
          (store config state.input.next.1) = _ := onTape_of_done hstored
      have hother : ({ state with input := input.next.2 } : State).onTape
          (store config input.next.1) = _ := onTape_of_done (hstore.trans hstored)
      rw [hread]
      exact hother
  | refused reason tape =>
      have hread : ({ state with input := state.input.next.2 } : State).onTape
          (store config state.input.next.1) = _ := onTape_of_refused hstored
      have hother : ({ state with input := input.next.2 } : State).onTape
          (store config input.next.1) = _ := onTape_of_refused (hstore.trans hstored)
      rw [hread]
      exact hother

/-- Reading does not depend on the output. -/
theorem receive_mapOutput (config : Config) (output : Sink → Sink) (state : State) :
    (state.mapOutput output).receive config =
      (state.receive config).map (mapOutput output) := by
  have hreceived : (({ state with input := state.input.next.2 } : State).mapOutput output).onTape
      (store config state.input.next.1) = _ := onTape_refit id id output _ _
  rw [receive_eq, receive_eq]
  exact hreceived

end State

namespace Machine

variable {machine : Machine} {state : State}

section Refit

variable (steps : Nat → Nat) (input : Input → Input) (output : Sink → Sink)

theorem jumpIf_refit (machine : Machine) (condition : Nat → Bool) (state : State) :
    machine.jumpIf condition (state.refit steps input output) =
      (machine.jumpIf condition state).map (State.refit steps input output) := by
  have htape : (state.refit steps input output).tape.read = state.tape.read := rfl
  have hip : (state.refit steps input output).ip = state.ip := rfl
  rw [jumpIf, jumpIf, htape]
  cases state.tape.read with
  | error error => rfl
  | ok value =>
      cases hcondition : condition value with
      | false =>
          simp only [hcondition]
          rfl
      | true =>
          simp only [hcondition, if_true, jump, hip]
          cases machine.program.target state.ip <;> rfl

/-- A byte that neither reads nor writes does the same whatever the channels and the number of steps
are. -/
theorem execute_refit {byte : UInt8} (hinput : Instruction.ofByte? byte ≠ some .input)
    (houtput : Instruction.ofByte? byte ≠ some .output) :
    machine.execute byte (state.refit steps input output) =
      (machine.execute byte state).map (State.refit steps input output) := by
  rw [execute, execute]
  cases hinstruction : Instruction.ofByte? byte with
  | none => rfl
  | some instruction =>
      rw [hinstruction] at hinput houtput
      cases instruction with
      | right => exact State.onTape_refit steps input output Tape.right state
      | left => exact State.onTape_refit steps input output Tape.left state
      | increment =>
          exact State.onTape_refit steps input output (Tape.increment machine.config) state
      | decrement =>
          exact State.onTape_refit steps input output (Tape.decrement machine.config) state
      | output => contradiction
      | input => contradiction
      | loopStart => exact jumpIf_refit steps input output machine (· = 0) state
      | loopEnd => exact jumpIf_refit steps input output machine (· ≠ 0) state

end Refit

/-- What is changed before an instruction can be changed behind it, if it is so for the byte that is
executed. -/
theorem executeNext_map {before after : State → State} (hip : (before state).ip = state.ip)
    (hexecute : ∀ byte, machine.program.fetch state.ip = .ok byte →
      machine.execute byte (before state) = (machine.execute byte state).map after)
    (hstuck : machine.instruction? state = none → after state = before state) :
    machine.executeNext (before state) = (machine.executeNext state).map after := by
  rw [executeNext, executeNext, hip]
  cases hfetch : machine.program.fetch state.ip with
  | error error =>
      have hnone : machine.instruction? state = none := by
        rw [instruction?, hfetch]
        rfl
      exact congrArg (Attempt.refused (Failure.code error)) (hstuck hnone).symm
  | ok byte => exact hexecute byte hfetch

/-- A step counts itself in the same way whatever is changed of the channels. -/
theorem step_map {before after : State → State}
    (hnext : machine.executeNext (before state) = (machine.executeNext state).map after)
    (hcounted : ∀ executed : State,
      after { executed with steps := executed.steps + 1 } =
        { after executed with steps := (after executed).steps + 1 }) :
    machine.step (before state) = (machine.step state).map after := by
  rw [step, step, hnext]
  cases machine.executeNext state with
  | done _ executed => exact congrArg (Attempt.done ()) (hcounted executed).symm
  | refused reason executed => rfl

/-- No instruction looks at the number of steps. -/
theorem executeNext_recount (machine : Machine) (steps : Nat) (state : State) :
    machine.executeNext (state.recount steps) =
      (machine.executeNext state).map (State.recount steps) := by
  refine executeNext_map rfl (fun byte _ => ?_) fun _ => rfl
  by_cases hwrite : Instruction.ofByte? byte = some .output
  · simp only [execute, hwrite]
    exact State.emit_refit (fun _ => steps) id fun value _ _ => (Attempt.map_id _).symm
  · by_cases hread : Instruction.ofByte? byte = some .input
    · simp only [execute, hread]
      exact State.onTape_refit (fun _ => steps) id id _
        { state with input := state.input.next.2 }
    · exact execute_refit (fun _ => steps) id id hread hwrite

/-- An instruction is the same with another input, unless it reads another byte from it that does
something else to the tape. -/
theorem executeNext_withInput {input : Input}
    (hstore : machine.instruction? state = some .input →
      State.store machine.config input.next.1 state.tape =
        State.store machine.config state.input.next.1 state.tape) :
    machine.executeNext (state.withInput input) =
      (machine.executeNext state).map (State.withInput
        (if machine.instruction? state = some .input then input.next.2 else input)) := by
  refine executeNext_map rfl (fun byte hfetch => ?_) fun hnone => ?_
  · rw [instruction?_of_fetch hfetch] at hstore ⊢
    by_cases hread : Instruction.ofByte? byte = some .input
    · rw [if_pos hread]
      simp only [execute, hread]
      exact State.receive_withInput (hstore hread)
    · rw [if_neg hread]
      by_cases hwrite : Instruction.ofByte? byte = some .output
      · simp only [execute, hwrite]
        exact State.emit_refit id (fun _ => input) fun value _ _ => (Attempt.map_id _).symm
      · exact execute_refit id (fun _ => input) id hread hwrite
  · rw [hnone]
    rfl

theorem step_withInput {input : Input}
    (hstore : machine.instruction? state = some .input →
      State.store machine.config input.next.1 state.tape =
        State.store machine.config state.input.next.1 state.tape) :
    machine.step (state.withInput input) =
      (machine.step state).map (State.withInput
        (if machine.instruction? state = some .input then input.next.2 else input)) :=
  step_map (executeNext_withInput hstore) fun _ => rfl

/-- A step is the same with another output, unless it writes a byte that the other output does not
take just as well. -/
theorem step_mapOutput {output : Sink → Sink} (hsound : state.tape.Sound machine.config)
    (hemit : ∀ byte, machine.written? state = some byte →
      (output state.output).emit byte = (state.output.emit byte).map output) :
    machine.step (state.mapOutput output) = (machine.step state).map (State.mapOutput output) := by
  refine step_map (executeNext_map rfl (fun byte hfetch => ?_) fun _ => rfl) fun _ => rfl
  rw [written?, instruction?_of_fetch hfetch] at hemit
  by_cases hwrite : Instruction.ofByte? byte = some .output
  · simp only [execute, hwrite]
    refine State.emit_refit id id fun value hread hfits => ?_
    obtain rfl : state.tape.current = value := Except.ok.inj (hsound.read_eq.symm.trans hread)
    refine hemit _ ?_
    rw [if_pos hwrite, State.byte?, if_pos hfits]
  · by_cases hread : Instruction.ofByte? byte = some .input
    · simp only [execute, hread]
      exact State.receive_mapOutput machine.config output state
    · exact execute_refit id id output hread hwrite

end Machine

namespace Interpreter

/-- The interpreter with the channels of its state exchanged. -/
def exchange (input : Input → Input) (output : Sink → Sink) (interpreter : Interpreter) :
    Interpreter :=
  { interpreter with state := interpreter.state.exchange input output }

/-- An answer does not depend on the channels. -/
theorem answer_exchange (input : Input → Input) (output : Sink → Sink) (machine : Machine)
    (progress : Progress) :
    answer machine (progress.map (State.exchange input output)) =
      (answer machine progress).map (exchange input output) := by
  cases progress with
  | running last | halted last => rfl
  | failed reason last => cases reason <;> rfl

end Interpreter

end TapeMachine
