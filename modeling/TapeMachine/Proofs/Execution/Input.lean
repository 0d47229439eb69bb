/-
# Unread input

A report tells nothing of the input that its run has not read: it is the same for every other input
that begins with the same bytes, as long as no read has come to the end. Where the end of the input
reads as zero it makes no difference at all whether zeros are put behind the input. And wherever
there is nothing to read from, an input with nothing in it would have done as well.
-/

import TapeMachine.Proofs.Execution.Report
import TapeMachine.Proofs.Machine.Input

namespace TapeMachine

namespace Interpreter

/-- A fresh interpreter on another input that its run cannot tell apart answers the same, but for
what is left of the input. -/
theorem exists_run_new_withInput (program : Program) (config : Config) {input other : Input}
    (output : Sink) (fuel : Nat)
    (hsame : Input.SameReads config
      (Machine.executions ⟨program, config⟩ .input fuel
        (Machine.initial ⟨program, config⟩ input output)).length input other) :
    ∃ unread, (new program config other output).run fuel =
      ((new program config input output).run fuel).map (exchange (fun _ => unread) id) := by
  by_cases hcode : program.code.size = 0
  · rw [run_new_of_size_eq_zero hcode, run_new_of_size_eq_zero hcode]
    exact ⟨other, rfl⟩
  · have hadvance := Machine.advance_withInput ⟨program, config⟩ fuel
      (Machine.initial ⟨program, config⟩ input output) hsame
    obtain ⟨unread, hother⟩ := hadvance
    have hinitial : Machine.initial ⟨program, config⟩ other output =
        (Machine.initial ⟨program, config⟩ input output).withInput other := rfl
    refine ⟨unread, ?_⟩
    rw [run_new_eq hcode, run_new_eq hcode, hinitial, hother]
    exact answer_exchange _ _ _ _

end Interpreter

namespace Execution

/-- A report does not speak of the input. -/
theorem reportOn_map_exchange (input : Input → Input)
    (answer : Attempt RunError Interpreter Ending) :
    reportOn (answer.map (Interpreter.exchange input id)) = reportOn answer := by
  cases answer with
  | done ending last => cases ending <;> rfl
  | refused error last =>
      cases error with
      | spent => rfl
      | failure reason => cases reason <;> rfl

variable {program : Program} {config : Config} {fuel : Nat}

/-- The report and the tape are the same on another input that the run cannot tell apart. -/
theorem runProgram_eq_of_sameReads (first second : Option (List UInt8))
    (hsame : Input.SameReads config
      (Machine.executions ⟨program, config⟩ .input fuel
        (Machine.initial ⟨program, config⟩ (.given first) (.empty none))).length
      (.given first) (.given second)) :
    runProgram program config second fuel = runProgram program config first fuel ∧
      ((Interpreter.new program config (.given second) (.empty none)).run fuel).state.state.tape =
        ((Interpreter.new program config (.given first)
          (.empty none)).run fuel).state.state.tape := by
  obtain ⟨unread, hrun⟩ :=
    Interpreter.exists_run_new_withInput program config (.empty none) fuel hsame
  rw [runProgram_eq_reportOn, runProgram_eq_reportOn, hrun, reportOn_map_exchange]
  refine ⟨rfl, ?_⟩
  cases (Interpreter.new program config (.given first) (.empty none)).run fuel <;> rfl

/-- What a run has not read of its input does not count. If it ends and every `,` that it has
executed has found a byte, the report is the same for every input that begins with these bytes. If
the end of the input reads as zero, then for every number of steps the report and the tape are the
same with any number of zeros behind the input, so that a run goes on for ever with them if and only
if it does without. And whatever the end of the input does, they are the same with no input as with
an empty one. -/
theorem report_depends_only_on_input_read {source : Source} {program : Program}
    (hload : Program.load source .utf8 = .ok program) (config : Config) :
    (∀ (host : Host) (accepted : Accepted), accepted.config host = .ok config →
      ∀ (input : Option (List UInt8)) (fuel : Nat),
        runSource host source accepted input fuel = runProgram program config input fuel) ∧
      (∀ (first second : List UInt8) (fuel : Nat) (report : Report),
        runProgram program config (some first) fuel = .ok report →
          let reads := (Machine.executions ⟨program, config⟩ .input fuel
            (Machine.initial ⟨program, config⟩ (.ofBytes first) (.empty none))).length
          reads ≤ first.length → second.take reads = first.take reads →
            runProgram program config (some second) fuel = .ok report) ∧
      (config.atEnd = .zero → ∀ (input : List UInt8) (zeros fuel : Nat),
        runProgram program config (some (input ++ List.replicate zeros 0)) fuel =
            runProgram program config (some input) fuel ∧
          ((Interpreter.new program config (.ofBytes (input ++ List.replicate zeros 0))
              (.empty none)).run fuel).state.state.tape =
            ((Interpreter.new program config (.ofBytes input)
              (.empty none)).run fuel).state.state.tape) ∧
      ∀ fuel : Nat,
        runProgram program config none fuel = runProgram program config (some []) fuel ∧
          ((Interpreter.new program config none (.empty none)).run fuel).state.state.tape =
            ((Interpreter.new program config (.ofBytes [])
              (.empty none)).run fuel).state.state.tape := by
  refine ⟨?_, ?_, ?_, ?_⟩
  · intro host accepted hconfig input fuel
    simp only [runSource, hload, hconfig]
  · intro first second fuel report hreport reads hreads hcommon
    have hread : (first.take reads).length = reads := List.length_take_of_le hreads
    have hsame : Input.SameReads config reads
        (.ofBytes (first.take reads ++ first.drop reads))
        (.ofBytes (first.take reads ++ second.drop reads)) :=
      Input.sameReads_of_common _ _ _ hread.ge
    rw [List.take_append_drop, ← hcommon, List.take_append_drop] at hsame
    exact (runProgram_eq_of_sameReads (some first) (some second) hsame).1.trans hreport
  · intro hzero input zeros fuel
    exact runProgram_eq_of_sameReads (some input) (some _)
      (Input.sameReads_of_zeros hzero input zeros _)
  · intro fuel
    exact runProgram_eq_of_sameReads (some []) none (Input.sameReads_none config _)

/-- A program that copies two bytes. Of a third byte its report tells nothing, nor of two zeros
behind the only byte of its input. With no input at all it writes the zeros of an empty one. -/
theorem report_depends_only_on_input_read_of_two_bytes :
    Program.load (.bytes [0x2C, 0x2E, 0x3E, 0x2C, 0x2E]) .utf8 =
        .ok ⟨#[0x2C, 0x2E, 0x3E, 0x2C, 0x2E], #[none, none, none, none, none]⟩ ∧
      runProgram ⟨#[0x2C, 0x2E, 0x3E, 0x2C, 0x2E], #[none, none, none, none, none]⟩
          ⟨2, by decide, .eight, .wrap, .trap, .zero⟩ (some [65, 66, 67]) 9 =
        .ok ⟨[65, 66], none, ⟨5, 1, none, 66, 5⟩⟩ ∧
      runProgram ⟨#[0x2C, 0x2E, 0x3E, 0x2C, 0x2E], #[none, none, none, none, none]⟩
          ⟨2, by decide, .eight, .wrap, .trap, .zero⟩ (some [65, 66]) 9 =
        .ok ⟨[65, 66], none, ⟨5, 1, none, 66, 5⟩⟩ ∧
      runProgram ⟨#[0x2C, 0x2E, 0x3E, 0x2C, 0x2E], #[none, none, none, none, none]⟩
          ⟨2, by decide, .eight, .wrap, .trap, .zero⟩ (some [65, 0, 0]) 9 =
        .ok ⟨[65, 0], none, ⟨5, 1, none, 0, 5⟩⟩ ∧
      runProgram ⟨#[0x2C, 0x2E, 0x3E, 0x2C, 0x2E], #[none, none, none, none, none]⟩
          ⟨2, by decide, .eight, .wrap, .trap, .zero⟩ none 9 =
        .ok ⟨[0, 0], none, ⟨5, 1, none, 0, 5⟩⟩ := by
  have hload : Program.load (.bytes [0x2C, 0x2E, 0x3E, 0x2C, 0x2E]) .utf8 =
      .ok ⟨#[0x2C, 0x2E, 0x3E, 0x2C, 0x2E], #[none, none, none, none, none]⟩ := by decide +kernel
  have hlong :
      runProgram ⟨#[0x2C, 0x2E, 0x3E, 0x2C, 0x2E], #[none, none, none, none, none]⟩
          ⟨2, by decide, .eight, .wrap, .trap, .zero⟩ (some [65, 66, 67]) 9 =
        .ok ⟨[65, 66], none, ⟨5, 1, none, 66, 5⟩⟩ := by decide +kernel
  obtain ⟨-, hread, hzeros, hnothing⟩ :=
    report_depends_only_on_input_read hload ⟨2, by decide, .eight, .wrap, .trap, .zero⟩
  have hreads : (Machine.executions
      ⟨⟨#[0x2C, 0x2E, 0x3E, 0x2C, 0x2E], #[none, none, none, none, none]⟩,
        ⟨2, by decide, .eight, .wrap, .trap, .zero⟩⟩
      .input 9 (Machine.initial
        ⟨⟨#[0x2C, 0x2E, 0x3E, 0x2C, 0x2E], #[none, none, none, none, none]⟩,
          ⟨2, by decide, .eight, .wrap, .trap, .zero⟩⟩
        (.ofBytes [65, 66, 67]) (.empty none))).length = 2 := by decide +kernel
  refine ⟨hload, hlong, hread [65, 66, 67] [65, 66] 9 _ hlong ?_ ?_, ?_, ?_⟩
  · rw [hreads]
    decide
  · rw [hreads]
    rfl
  · exact (hzeros rfl [65] 2 9).1.trans (by decide +kernel)
  · exact (hnothing 9).1.trans (by decide +kernel)

end Execution

end TapeMachine
