/-
# Inputs that a run cannot tell apart

What a run knows of its input are the bytes that it has taken from it. Two inputs are the same to it
if each of the reads does the same to the tape, and then both runs keep to the same states but for
what is left of the inputs. This is so if the inputs have the bytes in common that are taken. Where
the end of the input reads as zero, it is so if the one goes on with zeros where the other ends. And
an input with nothing in it is the same as none.
-/

import TapeMachine.Proofs.Machine.Exchange

namespace TapeMachine

namespace Input

/-- The next `count` reads of the inputs do the same to every tape. -/
def SameReads (config : Config) : Nat → Input → Input → Prop
  | 0, _, _ => True
  | count + 1, first, second =>
      (∀ tape, State.store config second.next.1 tape = State.store config first.next.1 tape) ∧
        SameReads config count first.next.2 second.next.2

variable {config : Config}

/-- Behind what the inputs have in common no read looks, as long as there are no more of them. -/
theorem sameReads_of_common (common first second : List UInt8) {count : Nat}
    (hle : count ≤ common.length) :
    SameReads config count (ofBytes (common ++ first)) (ofBytes (common ++ second)) := by
  induction count generalizing common with
  | zero => trivial
  | succ count ih =>
      cases common with
      | nil => contradiction
      | cons byte common => exact ⟨fun _ => rfl, ih common (Nat.le_of_succ_le_succ hle)⟩

/-- Zeros behind an input are no different from its end, where that reads as zero. -/
theorem sameReads_of_zeros (hzero : config.atEnd = .zero) (input : List UInt8)
    (zeros count : Nat) :
    SameReads config count (ofBytes input) (ofBytes (input ++ List.replicate zeros 0)) := by
  induction count generalizing input zeros with
  | zero => trivial
  | succ count ih =>
      cases input with
      | cons byte input => exact ⟨fun _ => rfl, ih input zeros⟩
      | nil =>
          cases zeros with
          | zero => exact ⟨fun _ => rfl, ih [] 0⟩
          | succ zeros =>
              refine ⟨fun tape => ?_, ih [] zeros⟩
              simp only [List.replicate_succ, List.nil_append, next_ofBytes, List.head?_cons,
                List.head?_nil, State.store, hzero]
              rfl

/-- No read tells an input with nothing in it from none. -/
theorem sameReads_none (config : Config) (count : Nat) :
    SameReads config count (ofBytes []) none := by
  induction count with
  | zero => trivial
  | succ count ih => exact ⟨fun _ => rfl, ih⟩

end Input

namespace Machine

/-- A run on another input that it cannot tell apart comes to the same, but for what is left of the
input. -/
theorem advance_withInput (machine : Machine) (fuel : Nat) (state : State) {input : Input}
    (hsame : Input.SameReads machine.config (machine.executions .input fuel state).length
      state.input input) :
    ∃ unread, machine.advance fuel (state.withInput input) =
      (machine.advance fuel state).map (State.withInput unread) := by
  induction fuel, state using machine.run_induction generalizing input with
  | spent state hrunning =>
      have hother : machine.hasHalted (state.withInput input) = false := hrunning
      rw [advance_zero hrunning, advance_zero hother]
      exact ⟨input, rfl⟩
  | halted fuel state hhalted =>
      have hother : machine.hasHalted (state.withInput input) = true := hhalted
      rw [advance_of_halted hhalted, advance_of_halted hother]
      exact ⟨input, rfl⟩
  | refused fuel state reason last hrunning hstep =>
      have hother : machine.hasHalted (state.withInput input) = false := hrunning
      have hstore : machine.instruction? state = some .input →
          State.store machine.config input.next.1 state.tape =
            State.store machine.config state.input.next.1 state.tape := by
        intro hread
        rw [executions_of_refused hrunning hstep, if_pos hread] at hsame
        exact hsame.1 state.tape
      have hstepped := step_withInput hstore
      rw [hstep] at hstepped
      rw [advance_of_refused hrunning hstep, advance_of_refused hother hstepped]
      exact ⟨_, rfl⟩
  | done fuel state next hrunning hstep ih =>
      have hother : machine.hasHalted (state.withInput input) = false := hrunning
      have hnext := machine.step_input state
      rw [executions_of_done hrunning hstep] at hsame
      rw [hstep] at hnext
      rw [advance_of_done hrunning hstep]
      by_cases hread : machine.instruction? state = some .input
      · rw [if_pos hread, List.singleton_append, List.length_cons] at hsame
        have hstepped := step_withInput fun _ => hsame.1 state.tape
        rw [hstep, if_pos hread] at hstepped
        rw [if_pos hread] at hnext
        rw [advance_of_done hother hstepped]
        exact ih (hnext ▸ hsame.2)
      · rw [if_neg hread, List.nil_append] at hsame
        have hstepped : machine.step (state.withInput input) = _ :=
          step_withInput fun hread' => absurd hread' hread
        rw [hstep, if_neg hread] at hstepped
        rw [if_neg hread] at hnext
        rw [advance_of_done hother hstepped]
        exact ih (hnext ▸ hsame)

end Machine

end TapeMachine
