/-
# Single turns

A machine can be driven from outside, one instruction at a time, as long as it has not halted. No
such turn is counted as a step, and a turn that is refused does not keep the machine from getting
another. But no instruction looks at the count of the steps, so up to the first refusal the turns
of a machine are the steps of its run.
-/

import TapeMachine.Proofs.Machine.Exchange

namespace TapeMachine

namespace Attempt

variable {ε σ τ α : Type}

/-- Why an attempt is refused, if it is. -/
def refusal? : Attempt ε σ α → Option ε
  | done _ _ => none
  | refused reason _ => some reason

theorem refusal?_map (change : σ → τ) (attempt : Attempt ε σ α) :
    (attempt.map change).refusal? = attempt.refusal? := by
  cases attempt <;> rfl

theorem state_map (change : σ → τ) (attempt : Attempt ε σ α) :
    (attempt.map change).state = change attempt.state := by
  cases attempt <;> rfl

end Attempt

/-- Why a run has failed, if it has. -/
def Progress.refusal? : Progress → Option Failure
  | .running _ | .halted _ => none
  | .failed reason _ => some reason

namespace Machine

variable {machine : Machine} {state : State}

/-- One turn: the instruction at the present position, unless the machine has halted. -/
def tick (machine : Machine) (state : State) : Attempt Failure State Unit :=
  if machine.hasHalted state then .done () state else machine.executeNext state

/-- The state after a number of turns, whether they are refused or not. -/
def ticks (machine : Machine) : Nat → State → State
  | 0, state => state
  | count + 1, state => ticks machine count (machine.tick state).state

/-- What each of a number of turns is refused for, if it is. -/
def refusals (machine : Machine) : Nat → State → List (Option Failure)
  | 0, _ => []
  | count + 1, state =>
      (machine.tick state).refusal? :: refusals machine count (machine.tick state).state

/-- The byte that the instruction about to be executed is to receive. -/
def received? (machine : Machine) (state : State) : Option UInt8 :=
  if machine.instruction? state = some .input then state.input.next.1 else none

theorem tick_of_halted (hhalted : machine.hasHalted state = true) :
    machine.tick state = .done () state := by
  rw [tick, if_pos hhalted]

theorem tick_of_running (hrunning : machine.hasHalted state = false) :
    machine.tick state = machine.executeNext state := by
  rw [tick, hrunning]
  rfl

/-- A turn takes from the input if it executes `,`, and leaves it alone otherwise. -/
theorem tick_input (machine : Machine) (state : State) :
    (machine.tick state).state.input =
      if machine.instruction? state = some .input then state.input.next.2 else state.input := by
  cases hhalted : machine.hasHalted state with
  | true =>
      rw [tick_of_halted hhalted, instruction?_of_halted hhalted]
      rfl
  | false =>
      rw [tick_of_running hhalted, ← (machine.step_sameChannels state).input]
      exact machine.step_input state

/-- A turn is the same with another input, unless it reads another byte from it. -/
theorem tick_withInput {input : Input}
    (hread : machine.instruction? state = some .input → input.next.1 = state.input.next.1) :
    machine.tick (state.withInput input) =
      (machine.tick state).map (State.withInput
        (if machine.instruction? state = some .input then input.next.2 else input)) := by
  cases hhalted : machine.hasHalted state with
  | true =>
      have hother : machine.hasHalted (state.withInput input) = true := hhalted
      rw [tick_of_halted hhalted, tick_of_halted hother, instruction?_of_halted hhalted]
      rfl
  | false =>
      have hother : machine.hasHalted (state.withInput input) = false := hhalted
      rw [tick_of_running hhalted, tick_of_running hother]
      exact executeNext_withInput fun hinput => by rw [hread hinput]

theorem ticks_of_halted (hhalted : machine.hasHalted state = true) (count : Nat) :
    machine.ticks count state = state := by
  induction count with
  | zero => rfl
  | succ count ih =>
      rw [ticks, tick_of_halted hhalted]
      exact ih

theorem refusals_of_halted (hhalted : machine.hasHalted state = true) (count : Nat) :
    machine.refusals count state = List.replicate count none := by
  induction count with
  | zero => rfl
  | succ count ih =>
      rw [refusals, tick_of_halted hhalted]
      exact congrArg (none :: ·) ih

/-- If no turn but the last is refused, the turns are a run of as many steps: it comes to the same
state, but for the count of the steps, and it fails with what the last turn is refused for. -/
theorem advance_of_refusals {count : Nat} (steps : Nat)
    (hrefusals : ∀ refusal ∈ (machine.refusals count state).dropLast, refusal = none) :
    (machine.advance count (state.recount steps)).refusal? =
        (machine.refusals count state).getLast?.join ∧
      ∃ taken, (machine.advance count (state.recount steps)).state =
        (machine.ticks count state).recount taken := by
  induction count generalizing state steps with
  | zero =>
      cases hhalted : machine.hasHalted (state.recount steps) with
      | true =>
          rw [advance_of_halted hhalted]
          exact ⟨rfl, steps, rfl⟩
      | false =>
          rw [advance_zero hhalted]
          exact ⟨rfl, steps, rfl⟩
  | succ count ih =>
      cases hhalted : machine.hasHalted state with
      | true =>
          have hother : machine.hasHalted (state.recount steps) = true := hhalted
          rw [advance_of_halted hother, ticks_of_halted hhalted, refusals_of_halted hhalted,
            List.getLast?_replicate]
          exact ⟨rfl, steps, rfl⟩
      | false =>
          have hother : machine.hasHalted (state.recount steps) = false := hhalted
          have hnext := machine.executeNext_recount steps state
          rw [refusals, tick_of_running hhalted] at hrefusals
          rw [refusals, ticks, tick_of_running hhalted]
          cases hexecuted : machine.executeNext state with
          | done _ next =>
              rw [hexecuted] at hnext hrefusals
              have hstep : machine.step (state.recount steps) =
                  .done () (next.recount (steps + 1)) :=
                step_eq_done_iff.mpr ⟨_, hnext, rfl⟩
              have hlater : ∀ refusal ∈ (machine.refusals count next).dropLast,
                  refusal = none := by
                intro refusal hmem
                cases hlist : machine.refusals count next with
                | nil =>
                    rw [hlist] at hmem
                    contradiction
                | cons first rest =>
                    rw [hlist] at hmem
                    refine hrefusals refusal ?_
                    change refusal ∈ (none :: machine.refusals count next).dropLast
                    rw [hlist]
                    exact List.mem_cons_of_mem none hmem
              rw [advance_of_done hother hstep]
              obtain ⟨hrefusal, hstate⟩ := ih (steps + 1) hlater
              refine ⟨hrefusal.trans ?_, hstate⟩
              change _ = (none :: machine.refusals count next).getLast?.join
              rw [List.getLast?_cons]
              cases (machine.refusals count next).getLast? <;> rfl
          | refused reason last =>
              rw [hexecuted] at hnext hrefusals
              have hstep : machine.step (state.recount steps) =
                  .refused reason (last.recount steps) := step_eq_refused_iff.mpr hnext
              cases count with
              | succ count => exact absurd (hrefusals (some reason) List.mem_cons_self) (by simp)
              | zero =>
                  rw [advance_of_refused hother hstep]
                  exact ⟨rfl, steps, rfl⟩

end Machine

end TapeMachine
