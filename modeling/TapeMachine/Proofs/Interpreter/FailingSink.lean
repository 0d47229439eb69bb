/-
# Runs on failing sinks

The run on a sink that is set to fail is that on a sink that never fails, cut off where the failure
is met. If fewer bytes are written than it takes to get there, nothing is different. If not, the run
is refused for the reason of the sink, which is no fault, and everything but the output is as it was
when the byte that the sink did not take was about to be written.
-/

import TapeMachine.Proofs.Machine.FailingSink
import TapeMachine.Proofs.Program.Loaded

namespace TapeMachine

namespace Interpreter

/-- The run on a sink that fails once it has taken so many bytes, next to the run on one that never
fails. As long as no more bytes than that are written, the failing sink makes no difference. The
next one ends the run with the error of the sink, in the state in which its instruction is fetched,
and the sink has taken the first bytes of what is written to the other one: as many as were to
succeed, and one more if it is the flush that has failed. -/
theorem failing_sink_cuts_run_off {source : Source} {encoding : Encoding} {program : Program}
    (hload : Program.load source encoding = .ok program) (config : Config) (input : Input)
    (failure : SinkFailure) (fuel : Nat) :
    let machine : Machine := ⟨program, config⟩
    let reliable := (new program config input (.empty none)).run fuel
    let failing := (new program config input (.empty (some failure))).run fuel
    let writes := machine.writes fuel (machine.initial input (.empty none))
    reliable.state.state.output.bytes.size = writes.length ∧
      (writes.length ≤ failure.after →
        failing = reliable.map (exchange id (Sink.failing failure))) ∧
      (failure.after < writes.length →
        ∃ state, writes[failure.after]? = some state ∧
          failing = .refused (.failure (.output failure.error))
            ⟨machine, { state with
              output := ⟨reliable.state.state.output.bytes.take failure.taken, failure.after,
                some failure⟩ }, true⟩) := by
  intro machine reliable failing writes
  have hclosed : machine.program.Closed := (Program.loaded_of_load hload).1.closed
  have hstart := machine.initial_inRange input (.empty none)
  have hsettled : (machine.initial input (.empty none)).output.Settled := Sink.empty_settled
  have hother : machine.initial input (.empty (some failure)) =
      (machine.initial input (.empty none)).mapOutput (Sink.failing failure) := rfl
  obtain ⟨log, hreliable⟩ :=
    exists_run_new_state_eq_advance program config input (.empty none) fuel
  have hbytes : reliable.state.state.output.bytes.size = writes.length := by
    have hsize := Machine.size_advance_output hclosed fuel hstart hsettled
    rw [hreliable]
    exact hsize.trans (Nat.zero_add _)
  refine ⟨hbytes, ?_⟩
  by_cases hcode : program.code.size = 0
  · have hnone : writes = [] := by
      simp only [writes, Machine.writes, machine,
        Machine.fetches_of_halted (initial_hasHalted hcode), List.filter_nil]
    refine ⟨fun _ => ?_, fun hlt => ?_⟩
    · simp only [failing, reliable, run_new_of_size_eq_zero hcode]
      rfl
    · rw [hnone] at hlt
      contradiction
  · have hfailing : failing = answer machine (machine.advance fuel
        ((machine.initial input (.empty none)).mapOutput (Sink.failing failure))) :=
      run_new_eq hcode fuel
    refine ⟨fun hle => ?_, fun hlt => ?_⟩
    · have hwritten := Machine.size_advance_output hclosed fuel hstart hsettled
      have hadvance := Machine.advance_failing hclosed fuel _ hstart hsettled
        (hwritten.trans (Nat.zero_add _) ▸ hle : _ ≤ failure.after)
      rw [hfailing, hadvance]
      simp only [reliable, run_new_eq hcode]
      exact answer_exchange id (Sink.failing failure) machine _
    · have hfetched := List.getElem?_eq_getElem hlt
      have hbroken := Machine.advance_broken hclosed hstart hsettled rfl hfetched
      refine ⟨_, hfetched, ?_⟩
      rw [hfailing, hbroken, hreliable]
      rfl

/-- A program that writes a byte, meets a cell that is no byte and writes another one. If the second
write fails, the first byte has been taken; if the second flush fails, both have. If it is the third
that is set to fail, the program halts. -/
theorem failing_sink_cuts_run_off_of_wide_cell :
    ∃ program,
      Program.load (.bytes [0x2B, 0x2E, 0x3E, 0x2D, 0x2E, 0x3C, 0x2B, 0x2E]) .utf8 =
        .ok program ∧
      (new program ⟨2, by decide, .sixteen, .wrap, .wrap, .zero⟩ .empty
          (.empty (some ⟨.write, 1, .system 28⟩))).run 20 =
        .refused (.failure (.output (.system 28)))
          ⟨⟨program, ⟨2, by decide, .sixteen, .wrap, .wrap, .zero⟩⟩,
            ⟨7, ⟨#[2, 65535], 0⟩, 7, .empty, ⟨#[1], 1, some ⟨.write, 1, .system 28⟩⟩,
              #[.skippedOutput 65535 4]⟩, true⟩ ∧
      (new program ⟨2, by decide, .sixteen, .wrap, .wrap, .zero⟩ .empty
          (.empty (some ⟨.flush, 1, .system 28⟩))).run 20 =
        .refused (.failure (.output (.system 28)))
          ⟨⟨program, ⟨2, by decide, .sixteen, .wrap, .wrap, .zero⟩⟩,
            ⟨7, ⟨#[2, 65535], 0⟩, 7, .empty, ⟨#[1, 2], 1, some ⟨.flush, 1, .system 28⟩⟩,
              #[.skippedOutput 65535 4]⟩, true⟩ ∧
      (new program ⟨2, by decide, .sixteen, .wrap, .wrap, .zero⟩ .empty
          (.empty (some ⟨.flush, 2, .system 28⟩))).run 20 =
        .done .halted
          ⟨⟨program, ⟨2, by decide, .sixteen, .wrap, .wrap, .zero⟩⟩,
            ⟨8, ⟨#[2, 65535], 0⟩, 8, .empty, ⟨#[1, 2], 2, some ⟨.flush, 2, .system 28⟩⟩,
              #[.skippedOutput 65535 4, .halted 8]⟩, true⟩ := by
  have hload : Program.load (.bytes [0x2B, 0x2E, 0x3E, 0x2D, 0x2E, 0x3C, 0x2B, 0x2E]) .utf8 =
      .ok ⟨#[0x2B, 0x2E, 0x3E, 0x2D, 0x2E, 0x3C, 0x2B, 0x2E],
        #[none, none, none, none, none, none, none, none]⟩ := by decide +kernel
  have hsecond : (Machine.writes
      ⟨⟨#[0x2B, 0x2E, 0x3E, 0x2D, 0x2E, 0x3C, 0x2B, 0x2E],
        #[none, none, none, none, none, none, none, none]⟩,
        ⟨2, by decide, .sixteen, .wrap, .wrap, .zero⟩⟩
      20 (Machine.initial
        ⟨⟨#[0x2B, 0x2E, 0x3E, 0x2D, 0x2E, 0x3C, 0x2B, 0x2E],
          #[none, none, none, none, none, none, none, none]⟩,
          ⟨2, by decide, .sixteen, .wrap, .wrap, .zero⟩⟩
        .empty (.empty none)))[1]? =
      some ⟨7, ⟨#[2, 65535], 0⟩, 7, .empty, ⟨#[1], 1, none⟩, #[.skippedOutput 65535 4]⟩ := by
    decide +kernel
  refine ⟨_, hload, ?_, ?_, ?_⟩
  · obtain ⟨-, -, hcut⟩ := failing_sink_cuts_run_off hload
      ⟨2, by decide, .sixteen, .wrap, .wrap, .zero⟩ .empty ⟨.write, 1, .system 28⟩ 20
    obtain ⟨state, hstate, hrun⟩ := hcut (by decide +kernel)
    obtain rfl := Option.some.inj (hstate.symm.trans hsecond)
    exact hrun.trans (by decide +kernel)
  · obtain ⟨-, -, hcut⟩ := failing_sink_cuts_run_off hload
      ⟨2, by decide, .sixteen, .wrap, .wrap, .zero⟩ .empty ⟨.flush, 1, .system 28⟩ 20
    obtain ⟨state, hstate, hrun⟩ := hcut (by decide +kernel)
    obtain rfl := Option.some.inj (hstate.symm.trans hsecond)
    exact hrun.trans (by decide +kernel)
  · obtain ⟨-, hsame, -⟩ := failing_sink_cuts_run_off hload
      ⟨2, by decide, .sixteen, .wrap, .wrap, .zero⟩ .empty ⟨.flush, 2, .system 28⟩ 20
    exact (hsame (by decide +kernel)).trans (by decide +kernel)

end Interpreter

end TapeMachine
