/-
# Runs under relaxed configurations

A relaxed configuration changes nothing until the run meets a fault that the relaxation has done
away with. Up to there the two runs keep in step, and if there is no such fault they end in the
same way. Where the stricter run meets it, the relaxed one is in the same state and goes on, and
what has been written stays written.
-/

import TapeMachine.Config.Relaxation
import TapeMachine.Proofs.Machine.Lockstep
import TapeMachine.Proofs.Machine.Refusal

namespace TapeMachine

namespace Config

variable {narrow wider : Config}

theorem Relaxes.increment_alike (hrelaxes : wider.Relaxes narrow) (tape : Tape) :
    Attempt.Alike (TapeError.OfKind (wider.Lifted narrow)) Eq (tape.increment narrow)
      (tape.increment wider) := by
  rw [Tape.increment, Tape.increment, hrelaxes.width]
  cases tape.read with
  | error error => exact .refused rfl
  | ok value =>
      rcases hrelaxes.overflow with hsame | ⟨htrap, hwrap⟩
      · rw [hsame]
        exact .of_eq rfl
      · by_cases hfull : value = narrow.width.largest
        · have hlifted : wider.Lifted narrow .dataOverflow := by
            simp [Lifted, htrap, hwrap]
          simp only [hfull, htrap, and_self, if_true]
          exact .excused hlifted
        · simp only [hfull, false_and, if_false]
          exact .of_eq rfl

theorem Relaxes.decrement_alike (hrelaxes : wider.Relaxes narrow) (tape : Tape) :
    Attempt.Alike (TapeError.OfKind (wider.Lifted narrow)) Eq (tape.decrement narrow)
      (tape.decrement wider) := by
  rw [Tape.decrement, Tape.decrement, hrelaxes.width]
  cases tape.read with
  | error error => exact .refused rfl
  | ok value =>
      rcases hrelaxes.underflow with hsame | ⟨htrap, hwrap⟩
      · rw [hsame]
        exact .of_eq rfl
      · by_cases hzero : value = 0
        · have hlifted : wider.Lifted narrow .dataUnderflow := by
            simp [Lifted, htrap, hwrap]
          simp only [hzero, htrap, and_self, if_true]
          exact .excused hlifted
        · simp only [hzero, false_and, if_false]
          exact .of_eq rfl

/-- Where a strict configuration meets the end of the input with a fault, a relaxed one goes on. -/
theorem Relaxes.store_alike (hrelaxes : wider.Relaxes narrow) {tape : Tape}
    (hsound : tape.Sound narrow) (byte : Option UInt8) :
    Attempt.Alike (TapeError.OfKind (wider.Lifted narrow)) Eq (State.store narrow byte tape)
      (State.store wider byte tape) := by
  cases byte with
  | some byte =>
      rw [State.store, State.store, hrelaxes.width]
      exact .of_eq rfl
  | none =>
      rcases hrelaxes.atEnd with hsame | ⟨hfault, hgoesOn⟩
      · simp only [State.store, hsame, hrelaxes.width]
        exact .of_eq rfl
      · have hlifted : wider.Lifted narrow .inputExhausted := by
          rcases hgoesOn with hzero | hkeep <;> simp [Lifted, *]
        simp only [State.store, hfault, hsound.refuse_eq]
        exact .excused hlifted

/-- A configuration and a relaxed one are alike but for the faults that have been lifted. -/
theorem Relaxes.alike (hrelaxes : wider.Relaxes narrow) :
    narrow.Alike wider (wider.Lifted narrow) Eq :=
  alike_of_same hrelaxes.tapeSize (fun {tape} _ => hrelaxes.increment_alike tape)
    (fun {tape} _ => hrelaxes.decrement_alike tape)
    (fun byte hsound => hrelaxes.store_alike hsound byte)

end Config

namespace Interpreter

variable {narrow wider : Config} {program : Program} {output : Sink}

/-- In the state in which the stricter run meets a lifted fault, the relaxed run goes on. -/
theorem relaxed_run_goes_on (hrelaxes : wider.Relaxes narrow) (hcode : program.code.size ≠ 0)
    (input : Option (List UInt8)) {count : Nat} {before : State}
    (hreaches : Machine.Reaches ⟨program, narrow⟩ count
      (Machine.initial ⟨program, narrow⟩ (.given input) output) before)
    (hrunning : Machine.hasHalted ⟨program, narrow⟩ before = false) :
    ∃ reached, (new program wider (.given input) output).run count =
        .done .unfinished ⟨⟨program, wider⟩, reached, true⟩ ∧
      reached = { before with log := reached.log } ∧
      ∀ more, before.output.bytes.toList <+:
        ((new program wider (.given input) output).run
          (count + more)).state.state.output.bytes.toList := by
  have hlockstep := hrelaxes.alike.lockstep program
  obtain ⟨reached, hreached, habreast⟩ := hlockstep.exists_reaches hreaches
    (hrelaxes.alike.initial_abreast program (.given input) output)
  have hgoing := (hlockstep.hasHalted_eq habreast).trans hrunning
  have hsame : reached = { before with log := reached.log } :=
    habreast.eq_of_tape_eq habreast.alongside.tape.related.symm
  refine ⟨reached, run_new_of_running hcode hreached hgoing, hsame, fun more => ?_⟩
  obtain ⟨log, hstate⟩ :=
    exists_run_new_state_eq_advance program wider (.given input) output (count + more)
  have hwritten := Machine.prefix_advance ⟨program, wider⟩ more reached
  rw [hstate, hreached.advance_add]
  rwa [habreast.alongside.output] at hwritten

/-- Relaxing the policies of a configuration changes a run only where it meets a fault that has
been lifted. Given the same number of steps, both runs answer alike and leave the same state
behind, up to the log; they both halt, meet the same fault, or go on. If the stricter run meets a
lifted fault, then after as many steps the relaxed run is in the state of the fault and goes on,
and however far it goes its output begins with what has been written before the fault. -/
theorem relaxed_run_agrees_until_lifted_fault (hrelaxes : wider.Relaxes narrow)
    (program : Program) (input : Option (List UInt8)) (output : Sink) :
    (∀ fuel : Nat,
      Attempt.Alike (RunError.OfKind (wider.Lifted narrow))
        (fun strict relaxed : Interpreter =>
          relaxed.state = { strict.state with log := relaxed.state.log })
        ((new program narrow (.given input) output).run fuel)
        ((new program wider (.given input) output).run fuel)) ∧
      ∀ (fuel : Nat) (fault : Fault) (final : Interpreter),
        (new program narrow (.given input) output).run fuel =
            .refused (.failure (.fault fault)) final →
          wider.Lifted narrow fault.kind →
            ∃ reached, (new program wider (.given input) output).run final.state.steps =
                .done .unfinished ⟨⟨program, wider⟩, reached, true⟩ ∧
              reached = { final.state with log := reached.log } ∧
              ∀ more, final.state.output.bytes.toList <+:
                ((new program wider (.given input) output).run
                  (final.state.steps + more)).state.state.output.bytes.toList := by
  constructor
  · intro fuel
    have halike := hrelaxes.alike.run_alike program (.given input) output fuel
    refine halike.mono fun _ _ habreast => ?_
    exact habreast.eq_of_tape_eq habreast.alongside.tape.related.symm
  · intro fuel fault final hrun hlifted
    have hcode : program.code.size ≠ 0 := by
      intro hzero
      rw [run_new_of_size_eq_zero hzero] at hrun
      obtain ⟨hreason, -⟩ := Attempt.refused.inj hrun
      obtain rfl := Failure.fault.inj (RunError.failure.inj hreason)
      exact hlifted
    obtain ⟨count, before, found, last, hreaches, hends, rfl, rfl⟩ :=
      (exists_run_new_fault_iff hcode).mp ⟨fuel, hrun⟩
    cases hends with
    | failed hrunning hstep =>
        obtain ⟨rfl, -⟩ :=
          Machine.blocked_of_step (hreaches.steady (Input.steady_given input)) hstep
        have hsteps : last.steps = count := hreaches.steps_eq.trans (Nat.zero_add count)
        obtain ⟨reached, hreached, hsame, hwritten⟩ :=
          relaxed_run_goes_on hrelaxes hcode input hreaches hrunning
        rw [← hsteps] at hreached hwritten
        exact ⟨reached, hreached, hsame, hwritten⟩

/-- A program that writes a zero cell and then takes one from it: the stricter run meets a fault on
the second instruction, and the relaxed one goes on from there and keeps the zero it has written. -/
theorem relaxed_run_agrees_until_lifted_fault_of_underflow :
    Config.Relaxes ⟨1, by decide, .eight, .wrap, .wrap, .zero⟩
        ⟨1, by decide, .eight, .wrap, .trap, .zero⟩ ∧
      ∃ (fault : Fault) (final : Interpreter) (reached : State),
        (new ⟨#[0x2E, 0x2D, 0x2E], #[none, none, none]⟩
            ⟨1, by decide, .eight, .wrap, .trap, .zero⟩ (.ofBytes []) (.empty none)).run 3 =
          .refused (.failure (.fault fault)) final ∧
        (new ⟨#[0x2E, 0x2D, 0x2E], #[none, none, none]⟩
            ⟨1, by decide, .eight, .wrap, .wrap, .zero⟩ (.ofBytes []) (.empty none)).run 1 =
          .done .unfinished ⟨⟨⟨#[0x2E, 0x2D, 0x2E], #[none, none, none]⟩,
            ⟨1, by decide, .eight, .wrap, .wrap, .zero⟩⟩, reached, true⟩ ∧
        reached = { final.state with log := reached.log } ∧
        ∀ more, [0] <+:
          ((new ⟨#[0x2E, 0x2D, 0x2E], #[none, none, none]⟩
              ⟨1, by decide, .eight, .wrap, .wrap, .zero⟩ (.ofBytes [])
                (.empty none)).run (1 + more)).state.state.output.bytes.toList := by
  have hrelaxes : Config.Relaxes ⟨1, by decide, .eight, .wrap, .wrap, .zero⟩
      ⟨1, by decide, .eight, .wrap, .trap, .zero⟩ :=
    ⟨rfl, rfl, .inl rfl, .inr ⟨rfl, rfl⟩, .inl rfl⟩
  have hrun : (new ⟨#[0x2E, 0x2D, 0x2E], #[none, none, none]⟩
      ⟨1, by decide, .eight, .wrap, .trap, .zero⟩ (.ofBytes []) (.empty none)).run 3 =
      .refused (.failure (.fault
          ⟨.dataUnderflow, "cell 0 is already 0", 1, 0, some 0x2D, some 0⟩))
        ⟨⟨⟨#[0x2E, 0x2D, 0x2E], #[none, none, none]⟩,
            ⟨1, by decide, .eight, .wrap, .trap, .zero⟩⟩,
          ⟨1, ⟨#[0], 0⟩, 1, .ofBytes [], ⟨#[0], 1, none⟩,
            #[.faulted ⟨.dataUnderflow, "cell 0 is already 0", 1, 0, some 0x2D,
              some 0⟩]⟩, true⟩ := by decide +kernel
  obtain ⟨reached, hreached, hsame, hwritten⟩ :=
    (relaxed_run_agrees_until_lifted_fault hrelaxes ⟨#[0x2E, 0x2D, 0x2E], #[none, none, none]⟩
      (some []) (.empty none)).2 3 _ _ hrun (by simp [Config.Lifted])
  exact ⟨hrelaxes, _, _, reached, hrun, hreached, hsame, hwritten⟩

end Interpreter

end TapeMachine
