/-
# Safe runs

Whatever the configuration and the input are, the run of a loaded program never leaves the code,
the tape or the width of a cell, and it meets no failure but a fault as long as the sink takes
every byte. A run that is not over after its steps is still in range, one that has halted stands
exactly at the end of the code, and every other one has met a fault.
-/

import TapeMachine.Proofs.Machine.Range

namespace TapeMachine

namespace State.InRange

variable {machine : Machine} {state : State}

theorem log (hstate : state.InRange machine) (log : Array Event) :
    { state with log }.InRange machine where
  ip_nonneg := hstate.ip_nonneg
  ip_le := hstate.ip_le
  tape := hstate.tape

theorem cell_le_two_pow_sub_one (hstate : state.InRange machine) {cell : Nat}
    (hcell : cell ∈ state.tape.cells) : cell ≤ 2 ^ machine.config.width.bits - 1 := by
  rw [← Width.largest_eq_two_pow_sub_one]
  exact hstate.tape.cell_le cell hcell

theorem ip_eq_of_hasHalted (hstate : state.InRange machine)
    (hhalted : machine.hasHalted state = true) : state.ip = machine.program.code.size := by
  have hle := hstate.ip_le
  have hge : (machine.program.code.size : Int) ≤ state.ip := by
    simpa [Machine.hasHalted] using hhalted
  omega

end State.InRange

namespace Interpreter

/-- What the run of a loaded program can answer: it is in range, and unless it is still going it
has halted at the end of the code or met a fault. -/
inductive Safe (machine : Machine) : Attempt RunError Interpreter Ending → Prop
  | unfinished {state : State} {spent : Bool} (hstate : state.InRange machine)
      (hrunning : machine.hasHalted state = false) :
      Safe machine (.done .unfinished ⟨machine, state, spent⟩)
  | halted {state : State} {spent : Bool} (hstate : state.InRange machine)
      (hend : state.ip = machine.program.code.size) :
      Safe machine (.done .halted ⟨machine, state, spent⟩)
  | faulted {fault : Fault} {state : State} {spent : Bool} (hstate : state.InRange machine) :
      Safe machine (.refused (.failure (.fault fault)) ⟨machine, state, spent⟩)

variable {machine : Machine}

/-- How a run ends that has come to a state in range. -/
theorem safe_answer_of_ends (hloaded : machine.program.Loaded) {state : State}
    (hstate : state.InRange machine) (hsink : state.output.failure = none)
    {progress : Progress} (hends : machine.Ends state progress) :
    Safe machine (answer machine progress) := by
  cases hends with
  | halted hhalted =>
      exact .halted (hstate.log _) (hstate.ip_eq_of_hasHalted hhalted)
  | failed hrunning hstep =>
      obtain ⟨hlast, hrefuses⟩ :=
        Machine.refused_inRange hloaded.closed hstate hrunning hstep
      obtain ⟨fault, rfl⟩ := hrefuses.exists_fault hloaded hsink
      exact .faulted (hlast.log _)

/-- A loaded program is safe. In every state that its run reaches, the position is in the code or
at its end, the head is on the tape, the tape has its length and every cell keeps to its width;
from there a step leads on or is refused with a fault. So a run that is over has halted at the
end of the code or met a fault. -/
theorem loaded_run_stays_in_range {source : Source} {encoding : Encoding} {program : Program}
    (hload : Program.load source encoding = .ok program) (config : Config) (input : Input)
    {output : Sink} (hsink : output.failure = none) :
    (∀ (count : Nat) (state : State),
      Machine.Reaches ⟨program, config⟩ count
          (Machine.initial ⟨program, config⟩ input output) state →
        (0 ≤ state.ip ∧ state.ip ≤ program.code.size) ∧
          (0 ≤ state.tape.head ∧ state.tape.head < config.tapeSize) ∧
          state.tape.cells.size = config.tapeSize ∧
          (∀ cell ∈ state.tape.cells, cell ≤ 2 ^ config.width.bits - 1) ∧
          ∀ reason last, Machine.hasHalted ⟨program, config⟩ state = false →
            Machine.step ⟨program, config⟩ state = .refused reason last →
              last.InRange ⟨program, config⟩ ∧ ∃ fault, reason = .fault fault) ∧
      ∀ fuel : Nat, Safe ⟨program, config⟩ ((new program config input output).run fuel) := by
  have hloaded := (Program.loaded_of_load hload).1
  have hinitial := Machine.initial_inRange ⟨program, config⟩ input output
  have hreached : ∀ {count : Nat} {state : State}, Machine.Reaches ⟨program, config⟩ count
      (Machine.initial ⟨program, config⟩ input output) state →
        state.InRange ⟨program, config⟩ ∧ state.output.failure = none := fun hreaches =>
    ⟨hreaches.inRange hloaded.closed hinitial, hreaches.failure_eq.trans hsink⟩
  constructor
  · intro count state hreaches
    obtain ⟨hstate, hfailure⟩ := hreached hreaches
    refine ⟨⟨hstate.ip_nonneg, hstate.ip_le⟩, ⟨hstate.tape.head_nonneg, hstate.tape.head_lt⟩,
      hstate.tape.size_eq, fun _ => hstate.cell_le_two_pow_sub_one, ?_⟩
    intro reason last hrunning hstep
    obtain ⟨hlast, hrefuses⟩ :=
      Machine.refused_inRange hloaded.closed hstate hrunning hstep
    exact ⟨hlast, hrefuses.exists_fault hloaded hfailure⟩
  · intro fuel
    by_cases hcode : program.code.size = 0
    · rw [run_new_of_size_eq_zero hcode]
      exact .faulted hinitial
    · rw [run_new_eq hcode]
      rcases Machine.advance_spec ⟨program, config⟩ fuel _ with
        ⟨last, hadvance, hreaches, hrunning⟩ | ⟨count, last, hreaches, hends⟩
      · rw [hadvance]
        exact .unfinished (hreached hreaches).1 hrunning
      · obtain ⟨hstate, hfailure⟩ := hreached hreaches
        exact safe_answer_of_ends hloaded hstate hfailure hends

/-- A loop that walks to the right until it leaves a tape of three cells. -/
theorem loaded_run_stays_in_range_of_walk :
    Program.load (.bytes [0x2B, 0x5B, 0x3E, 0x2B, 0x5D]) .utf8 =
        .ok ⟨#[0x2B, 0x5B, 0x3E, 0x2B, 0x5D], #[none, some 4, none, none, some 1]⟩ ∧
      ∀ fuel : Nat, Safe
        ⟨⟨#[0x2B, 0x5B, 0x3E, 0x2B, 0x5D], #[none, some 4, none, none, some 1]⟩,
          ⟨3, by decide, .eight, .wrap, .trap, .keep⟩⟩
        ((new ⟨#[0x2B, 0x5B, 0x3E, 0x2B, 0x5D], #[none, some 4, none, none, some 1]⟩
          ⟨3, by decide, .eight, .wrap, .trap, .keep⟩ .empty (.empty none)).run fuel) := by
  have hload : Program.load (.bytes [0x2B, 0x5B, 0x3E, 0x2B, 0x5D]) .utf8 =
      .ok ⟨#[0x2B, 0x5B, 0x3E, 0x2B, 0x5D], #[none, some 4, none, none, some 1]⟩ := by cbv
  exact ⟨hload, (loaded_run_stays_in_range hload _ _ rfl).2⟩

end Interpreter

end TapeMachine
