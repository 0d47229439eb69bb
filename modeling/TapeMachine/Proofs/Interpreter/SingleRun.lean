/-
# One run for each interpreter

Whatever is done to an interpreter, a run is started on it once at most. The first run uses it up
before anything else happens, so it does not matter how that run ends, or what is done before it and
behind it: every later one is refused, and the interpreter stays as it is.
-/

import TapeMachine.Interpreter.Action
import TapeMachine.Proofs.Machine.Tick

namespace TapeMachine

namespace Interpreter

/-- Perform actions one after another, whether they are refused or not. -/
def performAll (interpreter : Interpreter) : List Action → Interpreter
  | [] => interpreter
  | action :: actions => performAll (interpreter.perform action).state actions

/-- The action is a run that is not refused because of an earlier one. -/
def starts (interpreter : Interpreter) (action : Action) : Bool :=
  match action with
  | .run fuel => (interpreter.run fuel).refusal? ≠ some .spent
  | _ => false

/-- The runs that are started by a sequence of actions: the interpreter at the start of each. -/
def started (interpreter : Interpreter) : List Action → List Interpreter
  | [] => []
  | action :: actions =>
      let later := started (interpreter.perform action).state actions
      if interpreter.starts action then interpreter :: later else later

variable {interpreter : Interpreter}

theorem run_of_spent (hspent : interpreter.spent = true) (fuel : Nat) :
    interpreter.run fuel = .refused .spent interpreter := by
  rw [run, if_pos hspent]

theorem resume_spent (fuel : Nat) (interpreter : Interpreter) :
    (interpreter.resume fuel).state.spent = interpreter.spent := by
  rw [resume]
  cases interpreter.machine.conclude (interpreter.machine.advance fuel interpreter.state) <;> rfl

theorem resume_refusal? (fuel : Nat) (interpreter : Interpreter) :
    (interpreter.resume fuel).refusal? ≠ some .spent := by
  rw [resume]
  cases interpreter.machine.conclude (interpreter.machine.advance fuel interpreter.state) with
  | running last | halted last => exact nofun
  | failed reason last => exact nofun

/-- The first run uses the interpreter up, even if it ends before its first instruction. It may be
refused, but not as a later one. -/
theorem run_of_fresh (hfresh : interpreter.spent = false) (fuel : Nat) :
    (interpreter.run fuel).state.spent = true ∧
      (interpreter.run fuel).refusal? ≠ some .spent := by
  rw [run, hfresh, if_neg Bool.false_ne_true]
  by_cases hcode : interpreter.machine.program.code.size = 0
  · rw [if_pos hcode]
    refine ⟨rfl, fun hreason => ?_⟩
    have := Option.some.inj hreason
    contradiction
  · rw [if_neg hcode]
    exact ⟨resume_spent fuel _, resume_refusal? fuel _⟩

/-- Every run leaves the interpreter used up. -/
theorem run_spent (fuel : Nat) (interpreter : Interpreter) :
    (interpreter.run fuel).state.spent = true := by
  cases hspent : interpreter.spent with
  | true =>
      rw [run_of_spent hspent]
      exact hspent
  | false => exact (run_of_fresh hspent fuel).1

/-- Only an interpreter that is used up refuses a run as a later one. -/
theorem run_refusal?_eq_spent_iff (fuel : Nat) (interpreter : Interpreter) :
    (interpreter.run fuel).refusal? = some .spent ↔ interpreter.spent = true := by
  cases hspent : interpreter.spent with
  | true =>
      rw [run_of_spent hspent]
      exact ⟨fun _ => rfl, fun _ => rfl⟩
  | false => exact ⟨fun hrefused => absurd hrefused (run_of_fresh hspent fuel).2, nofun⟩

theorem execute_spent (byte : UInt8) (interpreter : Interpreter) :
    (interpreter.execute byte).state.spent = interpreter.spent := by
  rw [execute]
  cases interpreter.machine.execute byte interpreter.state <;> rfl

theorem walk_spent (times : Nat) (places : Array Trace) (interpreter : Interpreter) :
    (interpreter.walk times places).state.spent = interpreter.spent := by
  induction times generalizing places interpreter with
  | zero =>
      rw [walk]
      split <;> rfl
  | succ times ih =>
      rw [walk]
      cases interpreter.machine.hasHalted interpreter.state with
      | true => rfl
      | false =>
          cases interpreter.machine.executeNext interpreter.state with
          | refused reason last => rfl
          | done _ next =>
              cases hread : next.tape.read with
              | error error => simp only [hread]; rfl
              | ok cell => simp only [hread]; exact ih _ _

theorem onTape_spent (command : Tape.Command) (interpreter : Interpreter) :
    (interpreter.onTape command).state.spent = interpreter.spent := by
  rw [onTape]
  cases Tape.perform interpreter.machine.config command interpreter.state.tape <;> rfl

/-- What is not a run leaves it as it is whether the interpreter is used up. -/
theorem perform_spent {action : Action} (hother : ∀ fuel, action ≠ .run fuel)
    (interpreter : Interpreter) :
    (interpreter.perform action).state.spent = interpreter.spent := by
  cases action with
  | run fuel => exact absurd rfl (hother fuel)
  | next times =>
      have hspent := walk_spent times #[] interpreter
      rw [perform, next]
      cases hwalk : interpreter.walk times #[] with
      | done _ _ | refused _ _ => rw [hwalk] at hspent; exact hspent
  | execute byte =>
      have hspent := execute_spent byte interpreter
      rw [perform]
      cases hexecute : interpreter.execute byte with
      | done _ _ | refused _ _ => rw [hexecute] at hspent; exact hspent
  | setIp ip => rfl
  | onTape command =>
      have hspent := onTape_spent command interpreter
      rw [perform]
      cases hperform : interpreter.onTape command with
      | done _ _ | refused _ _ => rw [hperform] at hspent; exact hspent
  | rest => rfl

theorem perform_run_state (fuel : Nat) (interpreter : Interpreter) :
    (interpreter.perform (.run fuel)).state = (interpreter.run fuel).state := by
  rw [perform]
  cases interpreter.run fuel <;> rfl

/-- An action leaves an interpreter used up if it was so before or the action is a run. -/
theorem perform_spent_iff (action : Action) (interpreter : Interpreter) :
    (interpreter.perform action).state.spent = true ↔
      interpreter.spent = true ∨ ∃ fuel, action = .run fuel := by
  by_cases hrun : ∃ fuel, action = .run fuel
  · obtain ⟨fuel, rfl⟩ := hrun
    rw [perform_run_state, run_spent]
    exact ⟨fun _ => .inr ⟨fuel, rfl⟩, fun _ => rfl⟩
  · rw [perform_spent fun fuel hfuel => hrun ⟨fuel, hfuel⟩]
    exact ⟨.inl, fun hspent => hspent.resolve_right hrun⟩

/-- Actions leave an interpreter used up if it was so before or a run is among them. -/
theorem performAll_spent_iff (interpreter : Interpreter) (actions : List Action) :
    (interpreter.performAll actions).spent = true ↔
      interpreter.spent = true ∨ ∃ fuel, .run fuel ∈ actions := by
  induction actions generalizing interpreter with
  | nil => exact ⟨.inl, fun hspent => hspent.resolve_right nofun⟩
  | cons action actions ih =>
      rw [performAll, ih, perform_spent_iff, or_assoc, ← exists_or]
      simp only [List.mem_cons, eq_comm]

/-- A run is started on an interpreter that is not used up, and nothing else is a start. -/
theorem starts_iff (action : Action) (interpreter : Interpreter) :
    interpreter.starts action = true ↔
      interpreter.spent = false ∧ ∃ fuel, action = .run fuel := by
  cases action with
  | run fuel =>
      rw [starts, decide_eq_true_iff, ne_eq, run_refusal?_eq_spent_iff, Bool.not_eq_true]
      exact ⟨fun hfresh => ⟨hfresh, fuel, rfl⟩, And.left⟩
  | next _ | execute _ | setIp _ | onTape _ | rest => exact ⟨nofun, nofun⟩

/-- No run is started on an interpreter that is used up. -/
theorem started_of_spent (hspent : interpreter.spent = true) (actions : List Action) :
    interpreter.started actions = [] := by
  induction actions generalizing interpreter with
  | nil => rfl
  | cons action actions ih =>
      have hstarts : ¬interpreter.starts action = true := by
        intro hstarts
        have hfresh := ((starts_iff action interpreter).mp hstarts).1
        exact Bool.false_ne_true (hfresh.symm.trans hspent)
      rw [started, if_neg hstarts]
      exact ih ((perform_spent_iff action interpreter).mpr (.inl hspent))

theorem length_started_le (interpreter : Interpreter) (actions : List Action) :
    (interpreter.started actions).length ≤ 1 := by
  induction actions generalizing interpreter with
  | nil => exact Nat.zero_le 1
  | cons action actions ih =>
      rw [started]
      by_cases hstarts : interpreter.starts action = true
      · have hrun := ((starts_iff action interpreter).mp hstarts).2
        have hspent := (perform_spent_iff action interpreter).mpr (.inr hrun)
        rw [if_pos hstarts, started_of_spent hspent]
        exact Nat.le_refl 1
      · rw [if_neg hstarts]
        exact ih (interpreter.perform action).state

/-- Of all runs in a sequence of actions at most one is started, and after a run, however it has
ended and whatever has been done since, every other is refused and changes nothing. A run is refused
for this reason only if the interpreter was used up from the beginning or has been run. -/
theorem run_starts_once (interpreter : Interpreter) (actions : List Action) :
    (interpreter.started actions).length ≤ 1 ∧
      (∀ first, .run first ∈ actions → ∀ fuel,
        (interpreter.performAll actions).perform (.run fuel) =
          .refused (.run .spent) (interpreter.performAll actions)) ∧
      ∀ fuel, ((interpreter.performAll actions).run fuel).refusal? = some .spent ↔
        interpreter.spent = true ∨ ∃ first, .run first ∈ actions := by
  refine ⟨interpreter.length_started_le actions, ?_, ?_⟩
  · intro first hfirst fuel
    have hspent := (interpreter.performAll_spent_iff actions).mpr (.inr ⟨first, hfirst⟩)
    rw [perform, run_of_spent hspent]
  · intro fuel
    rw [run_refusal?_eq_spent_iff, performAll_spent_iff]

end Interpreter

end TapeMachine
