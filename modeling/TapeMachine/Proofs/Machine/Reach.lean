/-
# Counted steps

`Reaches` says that a number of steps leads from one state to another. A machine does the same
thing every time, so the states that it reaches lie on one line: of two of them the later one is
reached from the earlier. A run is then known by its last state. It has halted, or a step from
there is refused, or it has taken all the steps it was given.
-/

import TapeMachine.Interpreter
import TapeMachine.Proofs.Machine.Step

namespace TapeMachine

namespace Machine

/-- So many steps lead from one state to another. -/
inductive Reaches (machine : Machine) : Nat → State → State → Prop
  | refl {state : State} : Reaches machine 0 state state
  | step {count : Nat} {state next last : State} (hrunning : machine.hasHalted state = false)
      (hstep : machine.step state = .done () next) (hrest : Reaches machine count next last) :
      Reaches machine (count + 1) state last

variable {machine : Machine}

namespace Reaches

theorem trans {first second : Nat} {state middle last : State}
    (hfirst : machine.Reaches first state middle) (hsecond : machine.Reaches second middle last) :
    machine.Reaches (first + second) state last := by
  induction hfirst with
  | refl => rwa [Nat.zero_add]
  | step hrunning hstep _ ih =>
      rw [Nat.succ_add]
      exact .step hrunning hstep (ih hsecond)

theorem one {state next : State} (hrunning : machine.hasHalted state = false)
    (hstep : machine.step state = .done () next) : machine.Reaches 1 state next :=
  .step hrunning hstep .refl

theorem after_one {count : Nat} {state middle last : State}
    (hrest : machine.Reaches count middle last) (hfirst : machine.Reaches 1 state middle) :
    machine.Reaches (count + 1) state last := by
  rw [Nat.add_comm]
  exact hfirst.trans hrest

/-- A longer run goes on from where a shorter one has come. -/
theorem rest {first second : Nat} {state middle last : State}
    (hfirst : machine.Reaches first state middle)
    (hwhole : machine.Reaches (first + second) state last) :
    machine.Reaches second middle last := by
  induction hfirst with
  | refl => rwa [Nat.zero_add] at hwhole
  | step _ hstep _ ih =>
      rw [Nat.succ_add] at hwhole
      cases hwhole with
      | step _ hother hrest =>
          obtain ⟨-, rfl⟩ := Attempt.done.inj (hstep.symm.trans hother)
          exact ih hrest

theorem unique {count : Nat} {state first second : State}
    (hfirst : machine.Reaches count state first) (hsecond : machine.Reaches count state second) :
    first = second := by
  have hrest : machine.Reaches 0 first second := hfirst.rest hsecond
  cases hrest with
  | refl => rfl

end Reaches

theorem Reaches.steps_eq {count : Nat} {state last : State}
    (hreaches : machine.Reaches count state last) : last.steps = state.steps + count := by
  induction hreaches with
  | refl => rfl
  | @step count state next last _ hstep _ ih =>
      rw [ih, step_steps hstep, Nat.add_assoc, Nat.add_comm 1]

/-- How a run ends that has come to a state from which no step leads on. -/
inductive Ends (machine : Machine) (state : State) : Progress → Prop
  | halted (hhalted : machine.hasHalted state = true) : Ends machine state (.halted state)
  | failed {reason : Failure} {last : State} (hrunning : machine.hasHalted state = false)
      (hstep : machine.step state = .refused reason last) :
      Ends machine state (.failed reason last)

namespace Ends

theorem unique {state : State} {first second : Progress} (hfirst : machine.Ends state first)
    (hsecond : machine.Ends state second) : first = second := by
  cases hfirst with
  | halted hhalted =>
      cases hsecond with
      | halted _ => rfl
      | failed hrunning _ =>
          rw [hhalted] at hrunning
          contradiction
  | failed hrunning hstep =>
      cases hsecond with
      | halted hhalted =>
          rw [hhalted] at hrunning
          contradiction
      | failed _ hother =>
          obtain ⟨rfl, rfl⟩ := Attempt.refused.inj (hstep.symm.trans hother)
          rfl

/-- No step leads on from where a run ends. -/
theorem count_eq_zero {state last : State} {progress : Progress} {count : Nat}
    (hends : machine.Ends state progress) (hreaches : machine.Reaches count state last) :
    count = 0 := by
  cases hreaches with
  | refl => rfl
  | step hrunning hstep _ =>
      cases hends with
      | halted hhalted =>
          rw [hhalted] at hrunning
          contradiction
      | failed _ hrefused =>
          rw [hrefused] at hstep
          contradiction

end Ends

/-- No run goes further than one that has ended. -/
theorem Reaches.count_le_of_ends {first second : Nat} {state last other : State}
    {progress : Progress} (hfirst : machine.Reaches first state last)
    (hends : machine.Ends last progress) (hsecond : machine.Reaches second state other) :
    second ≤ first := by
  rcases Nat.lt_or_ge first second with hlonger | hle
  · obtain ⟨extra, rfl⟩ := Nat.exists_eq_add_of_lt hlonger
    rw [Nat.add_assoc] at hsecond
    have := hends.count_eq_zero (hfirst.rest hsecond)
    omega
  · exact hle

/-- A run ends in one way, after one number of steps. -/
theorem Reaches.ends_unique {first second : Nat} {state last other : State}
    {progress ending : Progress} (hfirst : machine.Reaches first state last)
    (hends : machine.Ends last progress) (hsecond : machine.Reaches second state other)
    (hother : machine.Ends other ending) : first = second ∧ last = other ∧ progress = ending := by
  obtain rfl := Nat.le_antisymm (hsecond.count_le_of_ends hother hfirst)
    (hfirst.count_le_of_ends hends hsecond)
  obtain rfl := hfirst.unique hsecond
  exact ⟨rfl, rfl, hends.unique hother⟩

/-- Runs are followed step by step: a run has taken its steps, has halted, is refused its next step
or takes it and goes on. -/
theorem run_induction (machine : Machine) {motive : Nat → State → Prop}
    (spent : ∀ state, machine.hasHalted state = false → motive 0 state)
    (halted : ∀ fuel state, machine.hasHalted state = true → motive fuel state)
    (refused : ∀ fuel state reason last, machine.hasHalted state = false →
      machine.step state = .refused reason last → motive (fuel + 1) state)
    (done : ∀ fuel state next, machine.hasHalted state = false →
      machine.step state = .done () next → motive fuel next → motive (fuel + 1) state)
    (fuel : Nat) (state : State) : motive fuel state := by
  induction fuel generalizing state with
  | zero =>
      cases hhalted : machine.hasHalted state with
      | true => exact halted 0 state hhalted
      | false => exact spent state hhalted
  | succ fuel ih =>
      cases hhalted : machine.hasHalted state with
      | true => exact halted (fuel + 1) state hhalted
      | false =>
          cases hstep : machine.step state with
          | refused reason last => exact refused fuel state reason last hhalted hstep
          | done _ next => exact done fuel state next hhalted hstep (ih next)

section Advance

variable {fuel : Nat} {state next last : State} {reason : Failure}

theorem advance_zero (hrunning : machine.hasHalted state = false) :
    machine.advance 0 state = .running state := by
  rw [advance, hrunning]
  rfl

theorem advance_of_halted (hhalted : machine.hasHalted state = true) :
    machine.advance fuel state = .halted state := by
  rw [advance.eq_def, if_pos hhalted]

theorem advance_of_refused (hrunning : machine.hasHalted state = false)
    (hstep : machine.step state = .refused reason last) :
    machine.advance (fuel + 1) state = .failed reason last := by
  rw [advance, hrunning, hstep]
  rfl

theorem advance_of_done (hrunning : machine.hasHalted state = false)
    (hstep : machine.step state = .done () next) :
    machine.advance (fuel + 1) state = machine.advance fuel next := by
  rw [advance, hrunning, hstep]
  rfl

end Advance

/-- Every run is still going after all of its steps, or has ended. -/
theorem advance_spec (machine : Machine) (fuel : Nat) (state : State) :
    (∃ last, machine.advance fuel state = .running last ∧ machine.Reaches fuel state last ∧
        machine.hasHalted last = false) ∨
      ∃ count last, machine.Reaches count state last ∧
        machine.Ends last (machine.advance fuel state) := by
  induction fuel, state using machine.run_induction with
  | spent state hrunning => exact .inl ⟨state, advance_zero hrunning, .refl, hrunning⟩
  | halted fuel state hhalted =>
      rw [advance_of_halted hhalted]
      exact .inr ⟨0, state, .refl, .halted hhalted⟩
  | refused fuel state reason last hrunning hstep =>
      rw [advance_of_refused hrunning hstep]
      exact .inr ⟨0, state, .refl, .failed hrunning hstep⟩
  | done fuel state next hrunning hstep ih =>
      rw [advance_of_done hrunning hstep]
      rcases ih with ⟨last, hadvance, hreaches, hlast⟩ | ⟨count, last, hreaches, hends⟩
      · exact .inl ⟨last, hadvance, .step hrunning hstep hreaches, hlast⟩
      · exact .inr ⟨count + 1, last, .step hrunning hstep hreaches, hends⟩

/-- A run that is given more steps than it takes tells how it ends. -/
theorem advance_of_reaches {count : Nat} {state last : State} {progress : Progress}
    (hreaches : machine.Reaches count state last) (hends : machine.Ends last progress) :
    machine.advance (count + 1) state = progress := by
  induction hreaches with
  | refl =>
      cases hends with
      | halted hhalted => simp [advance, hhalted]
      | failed hrunning hstep => simp [advance, hrunning, hstep]
  | step hrunning hstep _ ih =>
      rw [advance, hrunning, hstep]
      exact ih hends

/-- A run goes on from every state that it reaches. -/
theorem Reaches.advance_add {count : Nat} {state last : State}
    (hreaches : machine.Reaches count state last) (more : Nat) :
    machine.advance (count + more) state = machine.advance more last := by
  induction hreaches with
  | refl => rw [Nat.zero_add]
  | step hrunning hstep _ ih =>
      rw [Nat.succ_add, advance, hrunning, hstep]
      exact ih

theorem Reaches.advance_eq_running {count : Nat} {state last : State}
    (hreaches : machine.Reaches count state last) (hrunning : machine.hasHalted last = false) :
    machine.advance count state = .running last := by
  have hadvance := hreaches.advance_add 0
  rwa [Nat.add_zero, advance_zero hrunning] at hadvance

/-- A run that has not ended goes on from where it is. -/
theorem advance_add_of_running {count : Nat} {state last : State}
    (hadvance : machine.advance count state = .running last) (more : Nat) :
    machine.advance (count + more) state = machine.advance more last := by
  rcases machine.advance_spec count state with
    ⟨other, hother, hreaches, -⟩ | ⟨_, other, -, hends⟩
  · obtain rfl := Progress.running.inj (hadvance.symm.trans hother)
    exact hreaches.advance_add more
  · rw [hadvance] at hends
    contradiction

/-- The states in which the first steps of a run are taken, in order. -/
def visited (machine : Machine) : Nat → State → List State
  | 0, _ => []
  | count + 1, state =>
      if machine.hasHalted state then []
      else
        match machine.step state with
        | .done _ next => state :: machine.visited count next
        | .refused _ _ => []

theorem visited_one {state next : State} (hrunning : machine.hasHalted state = false)
    (hstep : machine.step state = .done () next) : machine.visited 1 state = [state] := by
  rw [visited, hrunning, hstep]
  rfl

theorem Reaches.visited_add {count : Nat} {state last : State}
    (hreaches : machine.Reaches count state last) (more : Nat) :
    machine.visited (count + more) state =
      machine.visited count state ++ machine.visited more last := by
  induction hreaches with
  | refl => simp [visited]
  | step hrunning hstep _ ih =>
      rw [Nat.succ_add, visited, visited, hrunning, hstep]
      exact congrArg (List.cons _) ih

end Machine

end TapeMachine
