/-
# The run of an interpreter

A fresh interpreter for a program with code runs its machine from the initial state. It halts, or
meets a failure, where the machine does; what is added is an entry in the log, and a fault is told
with its instruction and position.
-/

import TapeMachine.Proofs.Machine.Reach
import TapeMachine.Proofs.Tape.Sound

namespace TapeMachine

namespace Interpreter

/-- What the run of a machine answers when it has come so far. -/
def answer (machine : Machine) (progress : Progress) : Attempt RunError Interpreter Ending :=
  match machine.conclude progress with
  | .running state => .done .unfinished ⟨machine, state, true⟩
  | .halted state => .done .halted ⟨machine, state, true⟩
  | .failed reason state => .refused (.failure reason) ⟨machine, state, true⟩

variable {program : Program} {config : Config} {input : Input} {output : Sink}

/-- An interpreter that has not been run runs its machine from the state in which it is. -/
theorem run_eq {interpreter : Interpreter} (hfresh : interpreter.spent = false)
    (hcode : interpreter.machine.program.code.size ≠ 0) (fuel : Nat) :
    interpreter.run fuel =
      answer interpreter.machine (interpreter.machine.advance fuel interpreter.state) := by
  simp only [run, hfresh, hcode, if_false, Bool.false_eq_true]
  rfl

theorem run_new_eq (hcode : program.code.size ≠ 0) (fuel : Nat) :
    (new program config input output).run fuel =
      answer ⟨program, config⟩
        (Machine.advance ⟨program, config⟩ fuel
          (Machine.initial ⟨program, config⟩ input output)) :=
  run_eq rfl hcode fuel

/-- A program without code cannot be run. -/
theorem run_of_size_eq_zero {interpreter : Interpreter} {cell : Nat}
    (hfresh : interpreter.spent = false) (hcode : interpreter.machine.program.code.size = 0)
    (hread : interpreter.state.tape.read = .ok cell) (fuel : Nat) :
    interpreter.run fuel = .refused (.failure (.fault (Fault.emptyProgram cell)))
      { interpreter with spent := true } := by
  simp [run, hfresh, hcode, hread]

theorem blank_read (config : Config) : (Tape.blank config.tapeSize).read = .ok 0 := by
  rw [(Tape.blank_sound config).read_eq, Tape.blank_current]

theorem run_new_of_size_eq_zero (hcode : program.code.size = 0) (fuel : Nat) :
    (new program config input output).run fuel =
      .refused (.failure (.fault (Fault.emptyProgram 0)))
        { new program config input output with spent := true } :=
  run_of_size_eq_zero rfl hcode (blank_read config) fuel

/-- A machine without code has halted before its first step. -/
theorem initial_hasHalted (hcode : program.code.size = 0) :
    Machine.hasHalted ⟨program, config⟩ (Machine.initial ⟨program, config⟩ input output) =
      true := by
  simp [Machine.hasHalted, Machine.initial, hcode]

theorem exists_answer_state_eq (machine : Machine) (progress : Progress) :
    ∃ log, (answer machine progress).state.state = { progress.state with log } := by
  cases progress with
  | running last => exact ⟨last.log, rfl⟩
  | halted last => exact ⟨_, rfl⟩
  | failed reason last =>
      cases reason with
      | fault found => exact ⟨_, rfl⟩
      | cell error | jump error | code error | output error => exact ⟨last.log, rfl⟩

/-- A run leaves the state behind to which its machine has come; only the log may go on. -/
theorem exists_run_new_state_eq_advance (program : Program) (config : Config) (input : Input)
    (output : Sink) (fuel : Nat) :
    ∃ log, ((new program config input output).run fuel).state.state =
      { (Machine.advance ⟨program, config⟩ fuel
          (Machine.initial ⟨program, config⟩ input output)).state with log } := by
  by_cases hcode : program.code.size = 0
  · rw [run_new_of_size_eq_zero hcode, Machine.advance_of_halted (initial_hasHalted hcode)]
    exact ⟨#[], rfl⟩
  · rw [run_new_eq hcode]
    exact exists_answer_state_eq _ _

theorem answer_eq_halted_iff {machine : Machine} {progress : Progress} {final : Interpreter} :
    answer machine progress = .done .halted final ↔
      ∃ last, progress = .halted last ∧
        final = ⟨machine, { last with log := last.log.push (.halted last.steps) }, true⟩ := by
  constructor
  · intro hanswer
    cases progress with
    | running last =>
        obtain ⟨hending, -⟩ := Attempt.done.inj hanswer
        contradiction
    | halted last =>
        obtain ⟨-, rfl⟩ := Attempt.done.inj hanswer
        exact ⟨last, rfl, rfl⟩
    | failed reason last => cases reason <;> contradiction
  · rintro ⟨last, rfl, rfl⟩
    rfl

theorem answer_eq_fault_iff {machine : Machine} {progress : Progress} {fault : Fault}
    {final : Interpreter} :
    answer machine progress = .refused (.failure (.fault fault)) final ↔
      ∃ found last, progress = .failed (.fault found) last ∧
        fault = machine.locate found last.ip ∧
        final = ⟨machine, { last with log := last.log.push (.faulted fault) }, true⟩ := by
  constructor
  · intro hanswer
    cases progress with
    | running last => contradiction
    | halted last => contradiction
    | failed reason last =>
        cases reason with
        | fault found =>
            obtain ⟨hreason, rfl⟩ := Attempt.refused.inj hanswer
            obtain rfl := Failure.fault.inj (RunError.failure.inj hreason)
            exact ⟨found, last, rfl, rfl, rfl⟩
        | cell error | jump error | code error | output error =>
            obtain ⟨hreason, -⟩ := Attempt.refused.inj hanswer
            have := RunError.failure.inj hreason
            contradiction
  · rintro ⟨found, last, rfl, rfl, rfl⟩
    rfl

section Reached

variable {count : Nat} {last : State}

theorem run_new_of_running (hcode : program.code.size ≠ 0)
    (hreaches : Machine.Reaches ⟨program, config⟩ count
      (Machine.initial ⟨program, config⟩ input output) last)
    (hrunning : Machine.hasHalted ⟨program, config⟩ last = false) :
    (new program config input output).run count =
      .done .unfinished ⟨⟨program, config⟩, last, true⟩ := by
  have hadvance := hreaches.advance_add 0
  rw [Nat.add_zero, Machine.advance, hrunning] at hadvance
  rw [run_new_eq hcode, hadvance]
  rfl

theorem run_new_of_halted (hcode : program.code.size ≠ 0)
    (hreaches : Machine.Reaches ⟨program, config⟩ count
      (Machine.initial ⟨program, config⟩ input output) last)
    (hhalted : Machine.hasHalted ⟨program, config⟩ last = true) :
    (new program config input output).run count =
      .done .halted
        ⟨⟨program, config⟩, { last with log := last.log.push (.halted last.steps) }, true⟩ := by
  have hadvance := hreaches.advance_add 0
  rw [Nat.add_zero, Machine.advance, hhalted] at hadvance
  rw [run_new_eq hcode, hadvance]
  rfl

/-- Given so many steps, a run comes to the state that they lead to; only the log may go on. -/
theorem exists_run_new_state_eq (hcode : program.code.size ≠ 0)
    (hreaches : Machine.Reaches ⟨program, config⟩ count
      (Machine.initial ⟨program, config⟩ input output) last) :
    ∃ log, ((new program config input output).run count).state.state = { last with log } := by
  cases hhalted : Machine.hasHalted ⟨program, config⟩ last with
  | true =>
      rw [run_new_of_halted hcode hreaches hhalted]
      exact ⟨_, rfl⟩
  | false =>
      rw [run_new_of_running hcode hreaches hhalted]
      exact ⟨last.log, rfl⟩

theorem run_new_of_fault (hcode : program.code.size ≠ 0)
    (hreaches : Machine.Reaches ⟨program, config⟩ count
      (Machine.initial ⟨program, config⟩ input output) last)
    (hrunning : Machine.hasHalted ⟨program, config⟩ last = false) {found : Fault} {after : State}
    (hstep : Machine.step ⟨program, config⟩ last = .refused (.fault found) after) :
    (new program config input output).run (count + 1) =
      .refused (.failure (.fault (Machine.locate ⟨program, config⟩ found after.ip)))
        ⟨⟨program, config⟩, { after with
          log := after.log.push
            (.faulted (Machine.locate ⟨program, config⟩ found after.ip)) }, true⟩ := by
  rw [run_new_eq hcode, Machine.advance_of_reaches hreaches (.failed hrunning hstep)]
  rfl

end Reached

/-- A fresh interpreter halts where its machine does. -/
theorem exists_run_new_halted_iff (hcode : program.code.size ≠ 0) {final : Interpreter} :
    (∃ fuel, (new program config input output).run fuel = .done .halted final) ↔
      ∃ count last, Machine.Reaches ⟨program, config⟩ count
          (Machine.initial ⟨program, config⟩ input output) last ∧
        Machine.Ends ⟨program, config⟩ last (.halted last) ∧
        final = ⟨⟨program, config⟩, { last with log := last.log.push (.halted last.steps) },
          true⟩ := by
  simp only [run_new_eq hcode, answer_eq_halted_iff]
  constructor
  · rintro ⟨fuel, last, hadvance, rfl⟩
    rcases Machine.advance_spec ⟨program, config⟩ fuel _ with
      ⟨other, hrunning, -, -⟩ | ⟨count, other, hreaches, hends⟩
    · rw [hadvance] at hrunning
      contradiction
    · rw [hadvance] at hends
      cases hends with
      | halted hhalted => exact ⟨count, last, hreaches, .halted hhalted, rfl⟩
  · rintro ⟨count, last, hreaches, hends, rfl⟩
    exact ⟨count + 1, last, Machine.advance_of_reaches hreaches hends, rfl⟩

/-- A fresh interpreter meets a fault where its machine does. -/
theorem exists_run_new_fault_iff (hcode : program.code.size ≠ 0) {fault : Fault}
    {final : Interpreter} :
    (∃ fuel, (new program config input output).run fuel =
        .refused (.failure (.fault fault)) final) ↔
      ∃ count before found last, Machine.Reaches ⟨program, config⟩ count
          (Machine.initial ⟨program, config⟩ input output) before ∧
        Machine.Ends ⟨program, config⟩ before (.failed (.fault found) last) ∧
        fault = Machine.locate ⟨program, config⟩ found last.ip ∧
        final = ⟨⟨program, config⟩, { last with log := last.log.push (.faulted fault) },
          true⟩ := by
  simp only [run_new_eq hcode, answer_eq_fault_iff]
  constructor
  · rintro ⟨fuel, found, last, hadvance, hfault, hfinal⟩
    rcases Machine.advance_spec ⟨program, config⟩ fuel _ with
      ⟨other, hrunning, -, -⟩ | ⟨count, other, hreaches, hends⟩
    · rw [hadvance] at hrunning
      contradiction
    · rw [hadvance] at hends
      exact ⟨count, other, found, last, hreaches, hends, hfault, hfinal⟩
  · rintro ⟨count, before, found, last, hreaches, hends, hfault, hfinal⟩
    exact ⟨count + 1, found, last, Machine.advance_of_reaches hreaches hends, hfault, hfinal⟩

end Interpreter

end TapeMachine
