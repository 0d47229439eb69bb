/-
# Two machines in step

Two machines with one program that start alike and take alike steps keep in step for as long as
they run: at every moment they are at the same position, and in the end they answer alike, unless
the first machine meets an excused fault. Machines whose configurations are alike on related tapes
are of that sort; they are then also after the same number of steps, and what they have read and
written is the same.
-/

import TapeMachine.Proofs.Machine.Alike

namespace TapeMachine

namespace Machine

variable {Excused : FaultKind → Prop} {first second : Machine} {state other : State}

/-- Two machines with one program that keep in step: related states are at the same position,
whatever is in their logs, and from related states the steps are alike. -/
structure Lockstep (first second : Machine) (Excused : FaultKind → Prop)
    (Related : State → State → Prop) : Prop where
  program : second.program = first.program
  ip : ∀ {state other}, Related state other → other.ip = state.ip
  log : ∀ {state other}, Related state other → ∀ before after : Array Event,
    Related { state with log := before } { other with log := after }
  step : ∀ {state other}, Related state other →
    Attempt.Alike (Failure.OfKind Excused) Related (first.step state) (second.step other)

namespace Lockstep

variable {Related : State → State → Prop}

theorem hasHalted_eq (hlockstep : Lockstep first second Excused Related)
    (hrelated : Related state other) : second.hasHalted other = first.hasHalted state := by
  rw [hasHalted, hasHalted, hlockstep.program, hlockstep.ip hrelated]

/-- What the first machine reaches in some steps, the second reaches in as many. -/
theorem exists_reaches (hlockstep : Lockstep first second Excused Related) {count : Nat}
    {last : State} (hreaches : first.Reaches count state last)
    (hrelated : Related state other) :
    ∃ reached, second.Reaches count other reached ∧ Related last reached := by
  induction hreaches generalizing other with
  | refl => exact ⟨other, .refl, hrelated⟩
  | step hrunning hstep _ ih =>
      have halike := hlockstep.step hrelated
      rw [hstep] at halike
      obtain ⟨_, hother, hnext⟩ := halike.exists_of_done
      obtain ⟨reached, hrest, hlast⟩ := ih hnext
      have hgoing := (hlockstep.hasHalted_eq hrelated).trans hrunning
      exact ⟨reached, .step hgoing hother hrest, hlast⟩

/-- A failure is answered alike, with the same instruction and position. -/
theorem answer_failed (hlockstep : Lockstep first second Excused Related) (reason : Failure)
    (hrelated : Related state other) :
    Attempt.Alike (RunError.OfKind Excused)
      (fun interpreter companion : Interpreter => Related interpreter.state companion.state)
      (Interpreter.answer first (.failed reason state))
      (Interpreter.answer second (.failed reason other)) := by
  cases reason with
  | fault found =>
      have hlocate : second.locate found other.ip = first.locate found state.ip := by
        rw [locate, locate, hlockstep.program, hlockstep.ip hrelated]
      rw [Interpreter.answer, Interpreter.answer, conclude, conclude, hlocate]
      exact .refused (hlockstep.log hrelated _ _)
  | cell error | jump error | code error | output error => exact .refused hrelated

/-- However far both are taken, the machines answer alike. -/
theorem answer_alike (hlockstep : Lockstep first second Excused Related) (fuel : Nat)
    (hrelated : Related state other) :
    Attempt.Alike (RunError.OfKind Excused)
      (fun interpreter companion : Interpreter => Related interpreter.state companion.state)
      (Interpreter.answer first (first.advance fuel state))
      (Interpreter.answer second (second.advance fuel other)) := by
  induction fuel generalizing state other with
  | zero =>
      rw [advance, advance, hlockstep.hasHalted_eq hrelated]
      cases first.hasHalted state with
      | true => exact .done (hlockstep.log hrelated _ _)
      | false => exact .done hrelated
  | succ fuel ih =>
      rw [advance, advance, hlockstep.hasHalted_eq hrelated]
      cases first.hasHalted state with
      | true => exact .done (hlockstep.log hrelated _ _)
      | false =>
          have halike := hlockstep.step hrelated
          generalize first.step state = attempt at halike
          generalize second.step other = otherAttempt at halike
          cases halike with
          | done hnext => exact ih hnext
          | refused hlast => exact hlockstep.answer_failed _ hlast
          | @excused reason last _ hexcused =>
              cases reason with
              | fault found => exact .excused hexcused
              | cell error | jump error | code error | output error => exact hexcused.elim

/-- Fresh interpreters of machines in step answer alike. -/
theorem run_alike {program : Program} {config wide : Config}
    (hlockstep : Lockstep ⟨program, config⟩ ⟨program, wide⟩ Excused Related)
    {input otherInput : Input} {output otherOutput : Sink}
    (hinitial : Related (initial ⟨program, config⟩ input output)
      (initial ⟨program, wide⟩ otherInput otherOutput)) (fuel : Nat) :
    Attempt.Alike (RunError.OfKind Excused)
      (fun interpreter companion : Interpreter => Related interpreter.state companion.state)
      ((Interpreter.new program config input output).run fuel)
      ((Interpreter.new program wide otherInput otherOutput).run fuel) := by
  by_cases hcode : program.code.size = 0
  · rw [Interpreter.run_new_of_size_eq_zero hcode, Interpreter.run_new_of_size_eq_zero hcode]
    exact .refused hinitial
  · rw [Interpreter.run_new_eq hcode, Interpreter.run_new_eq hcode]
    exact hlockstep.answer_alike fuel hinitial

end Lockstep

variable {Tapes : Tape → Tape → Prop}

/-- States at the same position and after the same number of steps. -/
structure Abreast (Tapes : Tape → Tape → Prop) (state other : State) : Prop where
  alongside : State.Alongside Eq Tapes state other
  steps : other.steps = state.steps

/-- Such states differ at most in their tapes and their logs. -/
theorem Abreast.eq_of_tape_eq (habreast : Abreast Tapes state other) {tape : Tape}
    (htape : other.tape = tape) : other = { state with tape, log := other.log } := by
  have hip := habreast.alongside.place
  have hinput := habreast.alongside.input
  have houtput := habreast.alongside.output
  have hsteps := habreast.steps
  cases state
  cases other
  simp only at htape hip hinput houtput hsteps
  rw [htape, ← hip, hinput, houtput, hsteps]

theorem jump_alike (hprogram : second.program = first.program)
    (halong : State.Alongside Eq Tapes state other) :
    Attempt.Alike (Failure.OfKind Excused) (State.Alongside Eq Tapes) (first.jump state)
      (second.jump other) := by
  rw [jump, jump, hprogram, ← halong.place]
  cases first.program.target state.ip with
  | ok target => exact .done ⟨rfl, halong.tape, halong.input, halong.output⟩
  | error error => exact .refused halong

theorem executeNext_alike (first second : Machine) (hprogram : second.program = first.program)
    (hconfig : first.config.Alike second.config Excused Tapes)
    (halong : State.Alongside Eq (Tape.SoundWith first.config Tapes) state other) :
    Attempt.Alike (Failure.OfKind Excused)
      (State.Alongside Eq (Tape.SoundWith first.config Tapes)) (first.executeNext state)
      (second.executeNext other) := by
  rw [executeNext, executeNext, hprogram, ← halong.place]
  cases first.program.fetch state.ip with
  | ok byte =>
      exact execute_alike hconfig halong (congrArg (· + 1) halong.place)
        fun _ => jump_alike hprogram halong
  | error error => exact .refused halong

end Machine

/-- Machines whose configurations are alike keep in step. -/
theorem Config.Alike.lockstep {config wide : Config} {Excused : FaultKind → Prop}
    {Tapes : Tape → Tape → Prop} (hconfig : config.Alike wide Excused Tapes)
    (program : Program) :
    Machine.Lockstep ⟨program, config⟩ ⟨program, wide⟩ Excused
      (Machine.Abreast (Tape.SoundWith config Tapes)) where
  program := rfl
  ip habreast := habreast.alongside.place.symm
  log habreast _ _ :=
    ⟨⟨habreast.alongside.place, habreast.alongside.tape, habreast.alongside.input,
      habreast.alongside.output⟩, habreast.steps⟩
  step {state other} habreast := by
    have halike := Machine.step_alike
      (Machine.executeNext_alike ⟨program, config⟩ ⟨program, wide⟩ rfl hconfig habreast.alongside)
    generalize hfirst : Machine.step ⟨program, config⟩ state = attempt at halike
    generalize hsecond : Machine.step ⟨program, wide⟩ other = otherAttempt at halike
    cases halike with
    | done halong =>
        have hsteps := (Machine.step_steps hsecond).trans (congrArg (· + 1) habreast.steps)
        exact .done ⟨halong, hsteps.trans (Machine.step_steps hfirst).symm⟩
    | refused halong =>
        have hsteps := (Machine.refused_steps hsecond).trans habreast.steps
        exact .refused ⟨halong, hsteps.trans (Machine.refused_steps hfirst).symm⟩
    | excused hexcused => exact .excused hexcused

theorem Config.Alike.initial_abreast {config wide : Config} {Excused : FaultKind → Prop}
    {Tapes : Tape → Tape → Prop} (hconfig : config.Alike wide Excused Tapes)
    (program : Program) (input : Input) (output : Sink) :
    Machine.Abreast (Tape.SoundWith config Tapes)
      (Machine.initial ⟨program, config⟩ input output)
      (Machine.initial ⟨program, wide⟩ input output) :=
  ⟨⟨rfl, ⟨Tape.blank_sound config, hconfig.blank⟩, rfl, rfl⟩, rfl⟩

/-- Fresh interpreters whose configurations are alike answer alike. -/
theorem Config.Alike.run_alike {config wide : Config} {Excused : FaultKind → Prop}
    {Tapes : Tape → Tape → Prop} (hconfig : config.Alike wide Excused Tapes)
    (program : Program) (input : Input) (output : Sink) (fuel : Nat) :
    Attempt.Alike (RunError.OfKind Excused)
      (fun interpreter companion : Interpreter =>
        Machine.Abreast (Tape.SoundWith config Tapes) interpreter.state companion.state)
      ((Interpreter.new program config input output).run fuel)
      ((Interpreter.new program wide input output).run fuel) :=
  (hconfig.lockstep program).run_alike (hconfig.initial_abreast program input output) fuel

end TapeMachine
