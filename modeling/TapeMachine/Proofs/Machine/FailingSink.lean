/-
# Failing sinks

A sink that is set to fail is as good as one that never fails, up to its failure. A run does not
notice it before it has written as many bytes as the sink takes, and the next byte that it writes
ends the run where it is fetched.
-/

import TapeMachine.Proofs.Machine.Exchange

namespace TapeMachine

/-- How many bytes a sink takes that is set to fail. A byte whose flush fails has been taken. -/
def SinkFailure.taken (failure : SinkFailure) : Nat :=
  match failure.call with
  | .write => failure.after
  | .flush => failure.after + 1

namespace Sink

/-- The sink, set to fail. -/
def failing (failure : SinkFailure) (sink : Sink) : Sink := { sink with failure := some failure }

/-- The sink that is set to fail, behind a byte that it does not take or does not flush. -/
def broken (failure : SinkFailure) (byte : UInt8) (sink : Sink) : Sink :=
  match failure.call with
  | .write => sink.failing failure
  | .flush => { sink.failing failure with bytes := sink.bytes.push byte }

/-- The sink never fails, and all of its bytes have been flushed. -/
structure Settled (sink : Sink) : Prop where
  failure : sink.failure = none
  flushes : sink.flushes = sink.bytes.size

variable {sink : Sink} {failure : SinkFailure}

theorem empty_settled : Settled (empty none) := ⟨rfl, rfl⟩

theorem Settled.accept (hsettled : sink.Settled) (byte : UInt8) : (sink.accept byte).Settled where
  failure := hsettled.failure
  flushes := by simp [Sink.accept, hsettled.flushes]

/-- Up to its failure the sink takes a byte as one does that never fails. -/
theorem Settled.emit_failing_of_lt (hsettled : sink.Settled) (byte : UInt8)
    (hlt : sink.bytes.size < failure.after) :
    (sink.failing failure).emit byte = (sink.emit byte).map (failing failure) := by
  have hwrite : ¬ failure.after ≤ sink.bytes.size := Nat.not_le.mpr hlt
  rw [emit_of_failure_eq_none byte hsettled.failure]
  simp [emit, write, flush, error?, failing, hsettled.flushes, hwrite, Attempt.map]

/-- At its failure it refuses the byte. -/
theorem Settled.emit_failing_of_eq (hsettled : sink.Settled) (byte : UInt8)
    (hfull : sink.bytes.size = failure.after) :
    (sink.failing failure).emit byte = .refused failure.error (sink.broken failure byte) := by
  cases hcall : failure.call with
  | write => simp [emit, write, error?, failing, broken, hcall, hfull]
  | flush =>
      simp [emit, write, flush, error?, failing, broken, hcall, hfull, hsettled.flushes]

/-- What it has taken then is an initial part of what the other sink takes. -/
theorem Settled.broken_eq (hsettled : sink.Settled) {byte : UInt8} {bytes : Array UInt8}
    {rest : List UInt8} (hfull : sink.bytes.size = failure.after)
    (hbytes : bytes.toList = sink.bytes.toList ++ byte :: rest) :
    sink.broken failure byte = ⟨bytes.take failure.taken, failure.after, some failure⟩ := by
  have htake : ∀ (taken : Array UInt8) (others : List UInt8),
      bytes.toList = taken.toList ++ others → bytes.take taken.size = taken := by
    intro taken others hsplit
    apply Array.toList_inj.mp
    simp [hsplit]
  cases hcall : failure.call with
  | write =>
      have htaken := htake sink.bytes (byte :: rest) hbytes
      rw [hfull] at htaken
      simp only [broken, failing, SinkFailure.taken, hcall, htaken, hsettled.flushes, hfull]
  | flush =>
      have htaken := htake (sink.bytes.push byte) rest (by simp [hbytes])
      rw [Array.size_push, hfull] at htaken
      simp only [broken, failing, SinkFailure.taken, hcall, htaken, hsettled.flushes, hfull]

end Sink

namespace Machine

variable {machine : Machine} {state next last : State} {failure : SinkFailure}

theorem written?_eq_some {byte : UInt8} (hbyte : machine.written? state = some byte) :
    machine.instruction? state = some .output ∧ state.byte? = some byte := by
  rw [written?] at hbyte
  split at hbyte
  · exact ⟨‹_›, hbyte⟩
  · contradiction

theorem step_settled (hsound : state.tape.Sound machine.config)
    (hsettled : state.output.Settled) : (machine.step state).state.output.Settled := by
  rw [step_output hsound hsettled.failure]
  cases machine.written? state with
  | some byte => exact hsettled.accept byte
  | none => exact hsettled

theorem Reaches.settled (hclosed : machine.program.Closed) {count : Nat}
    (hreaches : machine.Reaches count state last) (hstate : state.InRange machine)
    (hsettled : state.output.Settled) : last.output.Settled := by
  induction hreaches with
  | refl => exact hsettled
  | step hrunning hstep _ ih =>
      have hnext := step_settled hstate.tape hsettled
      rw [hstep] at hnext
      exact ih (step_inRange hclosed hstate hrunning hstep) hnext

/-- A step does not notice a failure that is set for more bytes than have been written behind it. -/
theorem step_failing (hsound : state.tape.Sound machine.config)
    (hsettled : state.output.Settled)
    (hle : (machine.step state).state.output.bytes.size ≤ failure.after) :
    machine.step (state.mapOutput (Sink.failing failure)) =
      (machine.step state).map (State.mapOutput (Sink.failing failure)) := by
  refine step_mapOutput hsound fun byte hbyte => hsettled.emit_failing_of_lt byte ?_
  have houtput : (machine.step state).state.output = state.output.accept byte := by
    rw [step_output hsound hsettled.failure, hbyte]
  rw [houtput, Sink.accept, Array.size_push] at hle
  exact hle

/-- Once the sink has taken its bytes, the next one is refused where it is fetched. -/
theorem step_broken {byte : UInt8} (hsound : state.tape.Sound machine.config)
    (hsettled : state.output.Settled) (hbyte : machine.written? state = some byte)
    (hfull : state.output.bytes.size = failure.after) :
    machine.step (state.mapOutput (Sink.failing failure)) =
      .refused (.output failure.error)
        { state with output := state.output.broken failure byte } := by
  obtain ⟨hinstruction, hbyte⟩ := written?_eq_some hbyte
  have hother : machine.instruction? (state.mapOutput (Sink.failing failure)) = some .output :=
    hinstruction
  have hemit : (state.mapOutput (Sink.failing failure)).emit =
      (state.mapOutput (Sink.failing failure)).onOutput byte :=
    State.emit_of_byte?_eq_some hsound hbyte
  have hrefused : (state.mapOutput (Sink.failing failure)).onOutput byte =
      .refused (.output failure.error)
        { state with output := state.output.broken failure byte } := by
    simp only [State.onOutput, State.mapOutput, State.exchange,
      hsettled.emit_failing_of_eq byte hfull, id_eq]
  rw [step, executeNext_of_instruction? hother]
  simp only [execute, Instruction.ofByte?_byte]
  rw [hemit, hrefused]

/-- A run does not notice a failure that is set for more bytes than it writes. -/
theorem advance_failing (hclosed : machine.program.Closed) (fuel : Nat) (state : State)
    (hstate : state.InRange machine) (hsettled : state.output.Settled)
    (hle : (machine.advance fuel state).state.output.bytes.size ≤ failure.after) :
    machine.advance fuel (state.mapOutput (Sink.failing failure)) =
      (machine.advance fuel state).map (State.mapOutput (Sink.failing failure)) := by
  induction fuel, state using machine.run_induction with
  | spent state hrunning =>
      have hother : machine.hasHalted (state.mapOutput (Sink.failing failure)) = false := hrunning
      rw [advance_zero hrunning, advance_zero hother]
      rfl
  | halted fuel state hhalted =>
      have hother : machine.hasHalted (state.mapOutput (Sink.failing failure)) = true := hhalted
      rw [advance_of_halted hhalted, advance_of_halted hother]
      rfl
  | refused fuel state reason last hrunning hstep =>
      have hother : machine.hasHalted (state.mapOutput (Sink.failing failure)) = false := hrunning
      rw [advance_of_refused hrunning hstep] at hle
      have hfits : (machine.step state).state.output.bytes.size ≤ failure.after := by rwa [hstep]
      have hstepped := step_failing hstate.tape hsettled hfits
      rw [hstep] at hstepped
      rw [advance_of_refused hrunning hstep, advance_of_refused hother hstepped]
      rfl
  | done fuel state next hrunning hstep ih =>
      have hother : machine.hasHalted (state.mapOutput (Sink.failing failure)) = false := hrunning
      rw [advance_of_done hrunning hstep] at hle
      have hnext := step_settled hstate.tape hsettled
      rw [hstep] at hnext
      have hwritten : next.output.bytes.size ≤ failure.after :=
        (machine.prefix_advance fuel next).length_le.trans hle
      have hfits : (machine.step state).state.output.bytes.size ≤ failure.after := by rwa [hstep]
      have hstepped := step_failing hstate.tape hsettled hfits
      rw [hstep] at hstepped
      rw [advance_of_done hrunning hstep, advance_of_done hother hstepped]
      exact ih (step_inRange hclosed hstate hrunning hstep) hnext hle

/-- The states in which the first steps of a run fetch a `.` that writes a byte, in order. -/
def writes (machine : Machine) (fuel : Nat) (state : State) : List State :=
  (machine.fetches fuel state).filter fun fetched => (machine.written? fetched).isSome

theorem size_advance_output (hclosed : machine.program.Closed) (fuel : Nat)
    (hstate : state.InRange machine) (hsettled : state.output.Settled) :
    (machine.advance fuel state).state.output.bytes.size =
      state.output.bytes.size + (machine.writes fuel state).length := by
  have houtput := advance_output hclosed fuel state hstate hsettled.failure
  rw [← Array.length_toList, houtput, List.length_append, Array.length_toList,
    List.length_filterMap_eq_countP, List.countP_eq_length_filter, writes]

/-- Where a byte is written, it comes behind what has been written before. -/
theorem exists_advance_output_eq {byte : UInt8} (hclosed : machine.program.Closed)
    (hstate : state.InRange machine) (hsettled : state.output.Settled)
    (hrunning : machine.hasHalted state = false) (hbyte : machine.written? state = some byte)
    (more : Nat) :
    ∃ rest, (machine.advance (more + 1) state).state.output.bytes.toList =
      state.output.bytes.toList ++ byte :: rest := by
  have hfetches : ∃ rest, machine.fetches (more + 1) state = state :: rest := by
    cases hstep : machine.step state with
    | done _ next => exact ⟨_, fetches_of_done hrunning hstep⟩
    | refused reason last => exact ⟨[], fetches_of_refused hrunning hstep⟩
  obtain ⟨rest, hfetches⟩ := hfetches
  rw [advance_output hclosed (more + 1) state hstate hsettled.failure, hfetches,
    List.filterMap_cons_some hbyte]
  exact ⟨_, rfl⟩

/-- The run with the sink that is set to fail ends where the first byte is fetched behind those that
the sink takes. -/
theorem advance_broken (hclosed : machine.program.Closed) (hstate : state.InRange machine)
    (hsettled : state.output.Settled) (hempty : state.output.bytes.size = 0) {fuel : Nat}
    {fetched : State} (hfetched : (machine.writes fuel state)[failure.after]? = some fetched) :
    machine.advance fuel (state.mapOutput (Sink.failing failure)) =
      .failed (.output failure.error) { fetched with
        output := ⟨(machine.advance fuel state).state.output.bytes.take failure.taken,
          failure.after, some failure⟩ } := by
  obtain ⟨count, hcount, hreaches, hrunning, hwrites, hnumber⟩ :=
    exists_reaches_of_fetched hfetched
  obtain ⟨byte, hbyte⟩ := Option.isSome_iff_exists.mp hwrites
  obtain ⟨more, rfl⟩ := Nat.exists_eq_add_of_lt hcount
  have hinRange := hreaches.inRange hclosed hstate
  have hfetchedSettled := hreaches.settled hclosed hstate hsettled
  have hfull : fetched.output.bytes.size = failure.after := by
    have hsize := size_advance_output hclosed count hstate hsettled
    rwa [hreaches.advance_state, hempty, Nat.zero_add, writes, hnumber] at hsize
  have hadvance := hreaches.advance_eq_running hrunning
  have hother := advance_failing hclosed count state hstate hsettled
    (by rw [hreaches.advance_state]; exact hfull.le : _ ≤ failure.after)
  rw [hadvance] at hother
  obtain ⟨rest, hrest⟩ :=
    exists_advance_output_eq hclosed hinRange hfetchedSettled hrunning hbyte more
  have hrefused := step_broken hinRange.tape hfetchedSettled hbyte hfull
  rw [Nat.add_assoc, advance_add_of_running hother, hreaches.advance_add,
    ← hfetchedSettled.broken_eq hfull hrest]
  exact advance_of_refused hrunning hrefused

end Machine

end TapeMachine
