/-
# One instruction

Executing a byte changes the tape, reads the input, writes the output or jumps, and moves the
position on. A refused instruction leaves the position, the tape and the number of steps as they
were; only the input that it has already taken, and the byte whose flush has failed, stay taken.
-/

import TapeMachine.Machine

namespace TapeMachine

namespace State

/-- The state behind the present instruction. -/
def pass (state : State) : State :=
  { state with ip := state.ip + 1 }

/-- Change the tape and go on. -/
def onTape (change : Tape → Attempt TapeError Tape Unit) : State → Attempt Failure State Unit
  | ⟨ip, tape, steps, input, output, log⟩ =>
      match change tape with
      | .done _ tape => .done () ⟨ip + 1, tape, steps, input, output, log⟩
      | .refused reason tape =>
          .refused (.ofTape reason) ⟨ip, tape, steps, input, output, log⟩

/-- Write a byte and go on. -/
def onOutput (byte : UInt8) : State → Attempt Failure State Unit
  | ⟨ip, tape, steps, input, output, log⟩ =>
      match output.emit byte with
      | .done _ output => .done () ⟨ip + 1, tape, steps, input, output, log⟩
      | .refused error output =>
          .refused (.output error) ⟨ip, tape, steps, input, output, log⟩

/-- Write the current cell. A value above 255 is no byte: it is not written, and that is logged. -/
def emit (state : State) : Attempt Failure State Unit :=
  match state.tape.read with
  | .error error => .refused (.cell error) state
  | .ok value =>
      if 0xFF < value then
        .done () { state.pass with log := state.log.push (.skippedOutput value state.ip) }
      else
        state.onOutput (UInt8.ofNat value)

/-- What the tape does with a byte that was read, or with the end of the input. -/
def store (config : Config) (byte : Option UInt8) (tape : Tape) :
    Attempt TapeError Tape Unit :=
  match byte, config.atEnd with
  | some byte, _ => tape.write config.width byte.toNat
  | none, .zero => tape.write config.width 0
  | none, .keep => .done () tape
  | none, .fault => tape.refuse Fault.inputExhausted

/-- Read a byte into the current cell. -/
def receive (config : Config) (state : State) : Attempt Failure State Unit :=
  let (byte, input) := state.input.next
  { state with input }.onTape (store config byte)

end State

namespace Machine

/-- Go behind the partner of the bracket at the present position. -/
def jump (machine : Machine) (state : State) : Attempt Failure State Unit :=
  match machine.program.target state.ip with
  | .ok target => .done () { state with ip := target + 1 }
  | .error error => .refused (.jump error) state

/-- Jump if the current cell satisfies a condition, and go on otherwise. -/
def jumpIf (machine : Machine) (condition : Nat → Bool) (state : State) :
    Attempt Failure State Unit :=
  match state.tape.read with
  | .error error => .refused (.cell error) state
  | .ok value => if condition value then machine.jump state else .done () state.pass

/-- Execute a byte, whatever the code holds at the present position. -/
def execute (machine : Machine) (byte : UInt8) (state : State) : Attempt Failure State Unit :=
  match Instruction.ofByte? byte with
  | some .right => state.onTape Tape.right
  | some .left => state.onTape Tape.left
  | some .increment => state.onTape (Tape.increment machine.config)
  | some .decrement => state.onTape (Tape.decrement machine.config)
  | some .output => state.emit
  | some .input => state.receive machine.config
  | some .loopStart => machine.jumpIf (· = 0) state
  | some .loopEnd => machine.jumpIf (· ≠ 0) state
  | none => .done () state.pass

/-- Execute the byte at the present position. -/
def executeNext (machine : Machine) (state : State) : Attempt Failure State Unit :=
  match machine.program.fetch state.ip with
  | .ok byte => machine.execute byte state
  | .error error => .refused (.code error) state

/-- Execute the byte at the present position as a step of a run: it is counted. -/
def step (machine : Machine) (state : State) : Attempt Failure State Unit :=
  match machine.executeNext state with
  | .done _ state => .done () { state with steps := state.steps + 1 }
  | .refused reason state => .refused reason state

end Machine

end TapeMachine
