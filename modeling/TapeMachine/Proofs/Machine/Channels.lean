/-
# Reading and writing

Only `,` reads the input and only `.` writes to the output, whether they are executed or refused.
A read takes one chunk, and what has been written stays written, so the output of a run is an
initial part of the output of every longer run.

An input is steady if none of its chunks is empty. Its end is then found again by every later
read, and a read that finds the end changes nothing. No input at all is steady as well.
-/

import TapeMachine.Proofs.Machine.Reach

namespace TapeMachine

namespace Stream

/-- No chunk is empty, so that the stream does not end before its last byte. -/
def Steady (stream : Stream) : Prop :=
  ∀ chunk ∈ stream.chunks, chunk ≠ []

theorem steady_ofBytes (bytes : List UInt8) : (ofBytes bytes).Steady := by
  intro chunk hchunk
  obtain ⟨byte, -, rfl⟩ := List.mem_map.mp hchunk
  exact List.cons_ne_nil byte []

theorem Steady.next {stream : Stream} (hsteady : stream.Steady) : stream.next.2.Steady := by
  obtain ⟨chunks⟩ := stream
  cases chunks with
  | nil => exact hsteady
  | cons chunk chunks => exact fun other hother => hsteady other (List.mem_cons_of_mem chunk hother)

/-- A read finds the end of a steady stream only behind its last byte. -/
theorem Steady.eq_empty {stream : Stream} (hsteady : stream.Steady)
    (hend : stream.next.1 = none) : stream = empty := by
  obtain ⟨chunks⟩ := stream
  cases chunks with
  | nil => rfl
  | cons chunk chunks =>
      have hempty : chunk = [] := List.head?_eq_none_iff.mp hend
      exact absurd hempty (hsteady chunk List.mem_cons_self)

end Stream

namespace Input

/-- If there is something to read from, it does not end before its last byte. -/
def Steady (input : Input) : Prop :=
  ∀ stream ∈ input, stream.Steady

/-- Nothing is left to read. -/
def Exhausted (input : Input) : Prop :=
  ∀ stream ∈ input, stream = .empty

theorem steady_given (bytes : Option (List UInt8)) : (given bytes).Steady := by
  intro stream hstream
  obtain ⟨contents, -, rfl⟩ := Option.map_eq_some_iff.mp hstream
  exact Stream.steady_ofBytes contents

theorem Steady.next {input : Input} (hsteady : input.Steady) : input.next.2.Steady := by
  cases input with
  | none => exact hsteady
  | some stream =>
      rintro _ ⟨⟩
      exact (hsteady stream rfl).next

/-- A read finds the end of a steady input only when nothing is left to read. -/
theorem Steady.exhausted {input : Input} (hsteady : input.Steady)
    (hend : input.next.1 = none) : input.Exhausted := by
  rintro stream ⟨⟩
  exact (hsteady stream rfl).eq_empty hend

/-- A read changes nothing when nothing is left to read. -/
theorem Exhausted.next {input : Input} (hexhausted : input.Exhausted) :
    input.next = (none, input) := by
  cases input with
  | none => exact next_none
  | some stream =>
      obtain rfl : stream = .empty := hexhausted stream rfl
      exact next_empty

end Input

namespace Sink

theorem prefix_emit (byte : UInt8) (sink : Sink) :
    sink.bytes.toList <+: (sink.emit byte).state.bytes.toList := by
  have hflush : ∀ written : Sink, written.flush.state.bytes = written.bytes := by
    intro written
    rw [flush]
    split <;> rfl
  rw [emit]
  cases hwrite : sink.write byte with
  | done _ written =>
      rw [write] at hwrite
      split at hwrite
      · contradiction
      · obtain ⟨-, rfl⟩ := Attempt.done.inj hwrite
        simp only [hflush, Array.toList_push]
        exact List.prefix_append _ _
  | refused error written =>
      rw [write] at hwrite
      split at hwrite
      · obtain ⟨-, rfl⟩ := Attempt.refused.inj hwrite
        exact List.prefix_refl _
      · contradiction

end Sink

namespace State

/-- The input and the output are as they were. -/
structure SameChannels (before after : State) : Prop where
  input : after.input = before.input
  output : after.output = before.output

theorem SameChannels.prefix_output {before after : State} (hsame : SameChannels before after) :
    before.output.bytes.toList <+: after.output.bytes.toList :=
  ⟨[], by rw [hsame.output, List.append_nil]⟩

theorem onTape_sameChannels (change : Tape → Attempt TapeError Tape Unit) (state : State) :
    SameChannels state (state.onTape change).state := by
  cases hchange : change state.tape with
  | done _ tape =>
      rw [onTape_of_done hchange]
      exact ⟨rfl, rfl⟩
  | refused reason tape =>
      rw [onTape_of_refused hchange]
      exact ⟨rfl, rfl⟩

theorem emit_input (state : State) : state.emit.state.input = state.input := by
  rw [emit]
  cases state.tape.read with
  | error error => rfl
  | ok value =>
      by_cases hwide : 0xFF < value
      · simp only [hwide, if_true]
        rfl
      · simp only [hwide, if_false]
        rw [onOutput]
        cases state.output.emit (UInt8.ofNat value) <;> rfl

theorem prefix_emit (state : State) :
    state.output.bytes.toList <+: state.emit.state.output.bytes.toList := by
  rw [emit]
  cases state.tape.read with
  | error error => exact List.prefix_refl _
  | ok value =>
      by_cases hwide : 0xFF < value
      · simp only [hwide, if_true]
        exact List.prefix_refl _
      · have hwritten := state.output.prefix_emit (UInt8.ofNat value)
        simp only [hwide, if_false]
        rw [onOutput]
        cases hemit : state.output.emit (UInt8.ofNat value) with
        | done _ output =>
            rw [hemit] at hwritten
            exact hwritten
        | refused error output =>
            rw [hemit] at hwritten
            exact hwritten

end State

namespace Machine

variable {machine : Machine}

theorem jumpIf_sameChannels (machine : Machine) (condition : Nat → Bool) (state : State) :
    state.SameChannels (machine.jumpIf condition state).state := by
  rw [jumpIf]
  cases state.tape.read with
  | error error => exact ⟨rfl, rfl⟩
  | ok value =>
      cases hcondition : condition value with
      | true =>
          simp only [hcondition, if_true, jump]
          cases machine.program.target state.ip <;> exact ⟨rfl, rfl⟩
      | false =>
          simp only [hcondition]
          exact ⟨rfl, rfl⟩

/-- A byte that neither reads nor writes leaves the channels alone. -/
theorem execute_sameChannels {byte : UInt8} (hinput : Instruction.ofByte? byte ≠ some .input)
    (houtput : Instruction.ofByte? byte ≠ some .output) (state : State) :
    state.SameChannels (machine.execute byte state).state := by
  rw [execute]
  cases hinstruction : Instruction.ofByte? byte with
  | none => exact ⟨rfl, rfl⟩
  | some instruction =>
      rw [hinstruction] at hinput houtput
      cases instruction with
      | right => exact state.onTape_sameChannels Tape.right
      | left => exact state.onTape_sameChannels Tape.left
      | increment => exact state.onTape_sameChannels (Tape.increment machine.config)
      | decrement => exact state.onTape_sameChannels (Tape.decrement machine.config)
      | output => contradiction
      | input => contradiction
      | loopStart => exact machine.jumpIf_sameChannels (· = 0) state
      | loopEnd => exact machine.jumpIf_sameChannels (· ≠ 0) state

/-- A byte leaves the input alone, unless it is the one that reads, which takes one chunk. -/
theorem execute_input (machine : Machine) (byte : UInt8) (state : State) :
    (machine.execute byte state).state.input =
      if Instruction.ofByte? byte = some .input then state.input.next.2 else state.input := by
  by_cases hinput : Instruction.ofByte? byte = some .input
  · rw [if_pos hinput]
    simp only [execute, hinput, State.receive_eq]
    exact (State.onTape_sameChannels _ { state with input := state.input.next.2 }).input
  · rw [if_neg hinput]
    by_cases houtput : Instruction.ofByte? byte = some .output
    · simp only [execute, houtput]
      exact state.emit_input
    · exact (execute_sameChannels hinput houtput state).input

/-- What has been written stays written. -/
theorem prefix_execute (machine : Machine) (byte : UInt8) (state : State) :
    state.output.bytes.toList <+: (machine.execute byte state).state.output.bytes.toList := by
  by_cases houtput : Instruction.ofByte? byte = some .output
  · simp only [execute, houtput]
    exact state.prefix_emit
  · by_cases hinput : Instruction.ofByte? byte = some .input
    · simp only [execute, hinput, State.receive_eq]
      exact (State.onTape_sameChannels _ { state with input := state.input.next.2 }).prefix_output
    · exact (execute_sameChannels hinput houtput state).prefix_output

theorem prefix_executeNext (machine : Machine) (state : State) :
    state.output.bytes.toList <+: (machine.executeNext state).state.output.bytes.toList := by
  rw [executeNext]
  cases machine.program.fetch state.ip with
  | ok byte => exact machine.prefix_execute byte state
  | error error => exact List.prefix_refl _

/-- A step leaves a steady input steady. -/
theorem step_steady {state after : State} (hsteady : state.input.Steady)
    (hstep : machine.step state = .done () after) : after.input.Steady := by
  obtain ⟨executed, hexecuted, rfl⟩ := step_eq_done_iff.mp hstep
  rw [executeNext] at hexecuted
  cases hfetch : machine.program.fetch state.ip with
  | error error =>
      rw [hfetch] at hexecuted
      contradiction
  | ok byte =>
      have hinput := machine.execute_input byte state
      rw [hfetch] at hexecuted
      simp only at hexecuted
      rw [hexecuted] at hinput
      change executed.input.Steady
      change executed.input = _ at hinput
      rw [hinput]
      split
      · exact hsteady.next
      · exact hsteady

theorem Reaches.steady {count : Nat} {state last : State}
    (hreaches : machine.Reaches count state last) (hsteady : state.input.Steady) :
    last.input.Steady := by
  induction hreaches with
  | refl => exact hsteady
  | step _ hstep _ ih => exact ih (step_steady hsteady hstep)

theorem prefix_step (machine : Machine) (state : State) :
    state.output.bytes.toList <+: (machine.step state).state.output.bytes.toList := by
  have hexecuted := machine.prefix_executeNext state
  rw [step]
  cases hnext : machine.executeNext state with
  | done _ executed =>
      rw [hnext] at hexecuted
      exact hexecuted
  | refused reason executed =>
      rw [hnext] at hexecuted
      exact hexecuted

/-- However far a run is taken, what has been written before it stays written. -/
theorem prefix_advance (machine : Machine) (fuel : Nat) (state : State) :
    state.output.bytes.toList <+:
      (machine.advance fuel state).state.output.bytes.toList := by
  induction fuel generalizing state with
  | zero =>
      rw [advance]
      cases machine.hasHalted state <;> exact List.prefix_refl _
  | succ fuel ih =>
      have hstepped := machine.prefix_step state
      cases hhalted : machine.hasHalted state with
      | true =>
          rw [advance, if_pos hhalted]
          exact List.prefix_refl _
      | false =>
          rw [advance, hhalted]
          cases hstep : machine.step state with
          | done _ next =>
              rw [hstep] at hstepped
              exact hstepped.trans (ih next)
          | refused reason last =>
              rw [hstep] at hstepped
              exact hstepped

end Machine

end TapeMachine
