/-
# Runs on tables made by hand

A jump table need not pair the brackets of its program for the run to be safe. If it has an entry
for every byte and every target is a position of the code, then the run stays in the code and on the
tape, and it can only end by halting, with a fault, or stuck at a bracket without a target. It is
stuck exactly where it comes to a bracket that has to jump and has none, and it leaves everything as
it found it there.
-/

import TapeMachine.Proofs.Interpreter.Run
import TapeMachine.Proofs.Machine.Jumps

namespace TapeMachine

namespace Interpreter

variable {program : Program} {config : Config} {input : Input} {output : Sink}

/-- The states that a run reaches are in range, and its sink does not fail. -/
theorem reached_inRange (hclosed : program.Closed) (hsink : output.failure = none) {count : Nat}
    {state : State} (hreaches : Machine.Reaches ⟨program, config⟩ count
      (Machine.initial ⟨program, config⟩ input output) state) :
    state.InRange ⟨program, config⟩ ∧ state.output.failure = none :=
  ⟨hreaches.inRange hclosed (Machine.initial_inRange _ input output),
    hreaches.failure_eq.trans hsink⟩

/-- How a run that is refused has come to its end. -/
theorem exists_ends_of_run_refused {reason : RunError} {final : Interpreter} {fuel : Nat}
    (hcode : program.code.size ≠ 0)
    (hrun : (new program config input output).run fuel = .refused reason final) :
    ∃ count state found last, Machine.Reaches ⟨program, config⟩ count
        (Machine.initial ⟨program, config⟩ input output) state ∧
      Machine.hasHalted ⟨program, config⟩ state = false ∧
      Machine.step ⟨program, config⟩ state = .refused found last ∧
      answer ⟨program, config⟩ (.failed found last) = .refused reason final := by
  rw [run_new_eq hcode] at hrun
  rcases Machine.advance_spec ⟨program, config⟩ fuel _ with
    ⟨last, hadvance, -, -⟩ | ⟨count, state, hreaches, hends⟩
  · rw [hadvance] at hrun
    contradiction
  · generalize Machine.advance ⟨program, config⟩ fuel _ = progress at hrun hends
    cases hends with
    | halted => contradiction
    | failed hrunning hstep => exact ⟨count, state, _, _, hreaches, hrunning, hstep, hrun⟩

/-- A run on a closed table is refused with a fault, or at a bracket that has to jump and has no
target. -/
theorem run_refused_of_closed (hclosed : program.Closed) (hsink : output.failure = none)
    {reason : RunError} {final : Interpreter} {fuel : Nat}
    (hrun : (new program config input output).run fuel = .refused reason final) :
    (∃ fault, reason = .failure (.fault fault)) ∨
      ∃ count state, Machine.Reaches ⟨program, config⟩ count
          (Machine.initial ⟨program, config⟩ input output) state ∧
        Machine.Jumps ⟨program, config⟩ state ∧
        program.jumps[state.ip.toNat]? = some none ∧
        reason = .failure (.jump (.noTarget state.ip)) ∧
        final = ⟨⟨program, config⟩, state, true⟩ := by
  by_cases hcode : program.code.size = 0
  · rw [run_new_of_size_eq_zero hcode] at hrun
    obtain ⟨rfl, -⟩ := Attempt.refused.inj hrun
    exact .inl ⟨_, rfl⟩
  · obtain ⟨count, state, found, last, hreaches, hrunning, hstep, hanswer⟩ :=
      exists_ends_of_run_refused hcode hrun
    obtain ⟨hstate, hfailure⟩ := reached_inRange hclosed hsink hreaches
    have hmoves := Machine.step_moves hclosed hstate hrunning hfailure
    rw [hstep] at hmoves
    cases hmoves with
    | stuck hjumps hentry =>
        obtain ⟨rfl, rfl⟩ := Attempt.refused.inj hanswer
        exact .inr ⟨count, _, hreaches, hjumps, hentry, rfl, rfl⟩
    | faults =>
        obtain ⟨rfl, -⟩ := Attempt.refused.inj hanswer
        exact .inl ⟨_, rfl⟩

/-- A run is stuck where it comes to a bracket that has to jump and has no target. -/
theorem exists_run_stuck (hclosed : program.Closed) (hsink : output.failure = none) {count : Nat}
    {state : State} (hreaches : Machine.Reaches ⟨program, config⟩ count
      (Machine.initial ⟨program, config⟩ input output) state)
    (hjumps : Machine.Jumps ⟨program, config⟩ state)
    (hentry : program.jumps[state.ip.toNat]? = some none) :
    ∃ fuel, (new program config input output).run fuel =
      .refused (.failure (.jump (.noTarget state.ip))) ⟨⟨program, config⟩, state, true⟩ := by
  obtain ⟨hstate, hfailure⟩ := reached_inRange hclosed hsink hreaches
  have hnonneg := hstate.ip_nonneg
  have hlt : state.ip < program.code.size := hjumps.ip_lt
  have hrunning : Machine.hasHalted ⟨program, config⟩ state = false :=
    Machine.hasHalted_eq_false_iff.mpr hlt
  have hstep : Machine.step ⟨program, config⟩ state =
      .refused (.jump (.noTarget state.ip)) state :=
    (Machine.step_moves hclosed hstate hrunning hfailure).eq_of_stuck hjumps hentry
  refine ⟨count + 1, ?_⟩
  rw [run_new_eq (by omega), Machine.advance_of_reaches hreaches (.failed hrunning hstep)]
  rfl

/-- With a closed table, symmetric or not, a run stays in the code and on the tape. Each of its
steps passes on, follows an entry of the table that holds a target, or is refused. The run is
refused with a fault or for want of a target, and the latter exactly where it comes to a bracket
that has to jump and whose entry is empty; then it leaves the state as it was when the bracket was
fetched. -/
theorem closed_run_follows_table (hclosed : program.Closed) (config : Config) (input : Input)
    (hsink : output.failure = none) :
    (∀ (count : Nat) (state : State),
      Machine.Reaches ⟨program, config⟩ count
          (Machine.initial ⟨program, config⟩ input output) state →
        (0 ≤ state.ip ∧ state.ip ≤ program.code.size) ∧
          (0 ≤ state.tape.head ∧ state.tape.head < config.tapeSize) ∧
          (Machine.hasHalted ⟨program, config⟩ state = false →
            Machine.Moves ⟨program, config⟩ state (Machine.step ⟨program, config⟩ state))) ∧
      (∀ (fuel : Nat) (reason : RunError) (final : Interpreter),
        (new program config input output).run fuel = .refused reason final →
          (∃ fault, reason = .failure (.fault fault)) ∨
            ∃ position, reason = .failure (.jump (.noTarget position))) ∧
      ∀ (position : Int) (final : Interpreter),
        (∃ fuel, (new program config input output).run fuel =
            .refused (.failure (.jump (.noTarget position))) final) ↔
          ∃ count state, Machine.Reaches ⟨program, config⟩ count
              (Machine.initial ⟨program, config⟩ input output) state ∧
            state.ip = position ∧ Machine.Jumps ⟨program, config⟩ state ∧
            program.jumps[position.toNat]? = some none ∧
            final = ⟨⟨program, config⟩, state, true⟩ := by
  refine ⟨fun count state hreaches => ?_, fun fuel reason final hrun => ?_,
    fun position final => ⟨?_, ?_⟩⟩
  · obtain ⟨hstate, hfailure⟩ := reached_inRange hclosed hsink hreaches
    exact ⟨⟨hstate.ip_nonneg, hstate.ip_le⟩, ⟨hstate.tape.head_nonneg, hstate.tape.head_lt⟩,
      fun hrunning => Machine.step_moves hclosed hstate hrunning hfailure⟩
  · exact (run_refused_of_closed hclosed hsink hrun).imp_right
      fun ⟨_, state, _, _, _, hreason, _⟩ => ⟨state.ip, hreason⟩
  · rintro ⟨fuel, hrun⟩
    rcases run_refused_of_closed hclosed hsink hrun with
      ⟨fault, hfault⟩ | ⟨count, state, hreaches, hjumps, hentry, hreason, hfinal⟩
    · have := RunError.failure.inj hfault
      contradiction
    · obtain rfl : position = state.ip := by
        simpa using RunError.failure.inj hreason
      exact ⟨count, state, hreaches, rfl, hjumps, hentry, hfinal⟩
  · rintro ⟨count, state, hreaches, rfl, hjumps, hentry, rfl⟩
    exact exists_run_stuck hclosed hsink hreaches hjumps hentry

/-- A closer that leads to itself is followed, and the opener behind it, which leads nowhere, is
not. -/
theorem closed_run_follows_table_of_lone_brackets :
    Program.Closed ⟨#[0x2B, 0x5D, 0x2D, 0x5B], #[none, some 1, none, none]⟩ ∧
      (new ⟨#[0x2B, 0x5D, 0x2D, 0x5B], #[none, some 1, none, none]⟩
          ⟨2, by decide, .eight, .wrap, .trap, .zero⟩ .empty (.empty none)).run 9 =
        .refused (.failure (.jump (.noTarget 3)))
          ⟨⟨⟨#[0x2B, 0x5D, 0x2D, 0x5B], #[none, some 1, none, none]⟩,
              ⟨2, by decide, .eight, .wrap, .trap, .zero⟩⟩,
            ⟨3, ⟨#[0, 0], 0⟩, 3, .empty, .empty none, #[]⟩, true⟩ ∧
      ∃ count state, state.ip = 3 ∧
        Machine.Reaches ⟨⟨#[0x2B, 0x5D, 0x2D, 0x5B], #[none, some 1, none, none]⟩,
            ⟨2, by decide, .eight, .wrap, .trap, .zero⟩⟩ count
          (Machine.initial ⟨⟨#[0x2B, 0x5D, 0x2D, 0x5B], #[none, some 1, none, none]⟩,
            ⟨2, by decide, .eight, .wrap, .trap, .zero⟩⟩ .empty (.empty none)) state := by
  have hclosed : Program.Closed ⟨#[0x2B, 0x5D, 0x2D, 0x5B], #[none, some 1, none, none]⟩ := by
    refine ⟨rfl, fun position target hentry => ?_⟩
    have htarget : target = 1 := by
      rcases position with _ | _ | _ | _ | position <;> simp at hentry
      exact hentry.symm
    rw [htarget]
    decide
  have hrun : (new ⟨#[0x2B, 0x5D, 0x2D, 0x5B], #[none, some 1, none, none]⟩
        ⟨2, by decide, .eight, .wrap, .trap, .zero⟩ .empty (.empty none)).run 9 =
      .refused (.failure (.jump (.noTarget 3)))
        ⟨⟨⟨#[0x2B, 0x5D, 0x2D, 0x5B], #[none, some 1, none, none]⟩,
            ⟨2, by decide, .eight, .wrap, .trap, .zero⟩⟩,
          ⟨3, ⟨#[0, 0], 0⟩, 3, .empty, .empty none, #[]⟩, true⟩ := by decide +kernel
  obtain ⟨count, state, hreaches, hip, -⟩ :=
    ((closed_run_follows_table hclosed ⟨2, by decide, .eight, .wrap, .trap, .zero⟩ .empty
      rfl).2.2 3 _).mp ⟨9, hrun⟩
  exact ⟨hclosed, hrun, count, state, hip, hreaches⟩

end Interpreter

end TapeMachine
