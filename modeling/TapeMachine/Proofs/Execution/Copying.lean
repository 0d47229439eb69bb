/-
# Copying programs

A program of which `,[.,]` is left without its comments is reported to write its input up to the
first zero byte. If there is none, the end of the input decides: as a zero it ends the loop, and as
a fault it is reported at the first `,` if there is no input at all, and else at the second with the
last byte in the cell. What the program does if the cell is kept at the end of the input is not
said: it goes on writing the last byte for ever.
-/

import Mathlib.Data.List.TakeWhile
import TapeMachine.Proofs.Execution.Report
import TapeMachine.Proofs.Interpreter.Comments
import TapeMachine.Proofs.Machine.Copying

namespace TapeMachine

open Instruction

theorem copying_balanced : Balanced copying :=
  .leaf rfl (.loop (.leaf rfl (.leaf rfl .nil)) .nil)

namespace Interpreter

variable {program : Program} {config : Config}

/-- How a run ends that copies its input: it halts behind a zero, or it meets a fault at the first
or the second `,` of its code. -/
inductive Copied (code : List UInt8) (config : Config) (bytes : List UInt8) :
    Attempt RunError Interpreter Ending → Prop
  | halted {final : Interpreter} (hzero : 0 ∈ bytes ∨ config.atEnd = .zero)
      (houtput : final.state.output.bytes.toList = bytes.takeWhile (· ≠ 0)) :
      Copied code config bytes (.done .halted final)
  | exhausted {final : Interpreter} {fault : Fault} {position : Nat} (hzero : 0 ∉ bytes)
      (hatEnd : config.atEnd = .fault) (houtput : final.state.output.bytes.toList = bytes)
      (hkind : fault.kind = .inputExhausted)
      (hcell : fault.cell = some ((bytes.getLast?.getD 0).toNat : Int)) (hip : fault.ip = position)
      (hreads : code[position]? = some input.byte)
      (hcount : (code.take position).count input.byte = if bytes = [] then 0 else 1) :
      Copied code config bytes (.refused (.failure (.fault fault)) final)

/-- The copying program without comments copies. -/
theorem exists_copied (hcopies : Machine.Copies ⟨program, config⟩)
    (hatEnd : config.atEnd ≠ .keep) (bytes : List UInt8) :
    ∃ fuel, Copied copying config bytes
      ((new program config (.ofBytes bytes) (.empty none)).run fuel) := by
  have hcode : program.code.size ≠ 0 := by
    rw [hcopies.size_eq]
    decide
  obtain ⟨count, last, hreaches, hstopped⟩ := hcopies.exists_stopped hatEnd bytes
  cases hstopped with
  | behind hzero hlast =>
      have hhalted := (hlast.hasHalted_iff hcopies).mpr (Nat.le_refl 5)
      refine ⟨count, ?_⟩
      rw [run_new_of_halted hcode hreaches hhalted]
      exact .halted hzero hlast.output_eq
  | exhausted hzero hpolicy hlast =>
      have hreads : copying[if bytes = [] then 0 else 3]? = some input.byte := by
        split <;> rfl
      have hcount : (copying.take (if bytes = [] then 0 else 3)).count input.byte =
          if bytes = [] then 0 else 1 := by
        split <;> rfl
      obtain ⟨fault, after, hends, hafter, hkind, hcell⟩ :=
        hlast.exists_ends hcopies hreads hpolicy
      cases hends with
      | failed hrunning hstep =>
          refine ⟨count + 1, ?_⟩
          rw [run_new_of_fault hcode hreaches hrunning hstep]
          exact .exhausted hzero hpolicy hafter.output_eq hkind hcell hafter.ip_eq hreads hcount

/-- With comments it copies as well, and a fault is at the same `,`. -/
theorem Copied.of_endsAlike {code bytes : List UInt8} (hcode : withoutComments code = copying)
    {commented bare : Attempt RunError Interpreter Ending} (halike : EndsAlike code commented bare)
    (hsame : bare.state.state.output = commented.state.state.output)
    (hcopied : Copied copying config bytes bare) : Copied code config bytes commented := by
  cases halike with
  | halted =>
      cases hcopied with
      | halted hzero houtput => exact .halted hzero (hsame ▸ houtput)
  | @faulted commented bare fault position instruction hip hbyte hop =>
      cases hcopied with
      | @exhausted _ _ bareposition hzero hatEnd houtput hkind hcell hrank hreads hcount =>
          obtain rfl : rank code position = bareposition := Int.ofNat_inj.mp hrank
          have hbare := getElem?_rank hbyte (ofByte?_byte instruction)
          rw [hcode, hreads] at hbare
          rw [← hcode, ← withoutComments_take, count_withoutComments] at hcount
          exact .exhausted hzero hatEnd (hsame ▸ houtput) hkind hcell hip (hbyte.trans hbare.symm)
            hcount

theorem Copied.not_unfinished {code bytes : List UInt8}
    {answer : Attempt RunError Interpreter Ending} (hcopied : Copied code config bytes answer)
    (going : Interpreter) : answer ≠ .done .unfinished going := by
  cases hcopied with
  | halted => simp
  | exhausted => simp

/-- A program of which the copying one is left without comments copies. -/
theorem exists_copied_of_withoutComments (hloaded : program.Loaded)
    (hcode : withoutComments program.code.toList = copying) (hatEnd : config.atEnd ≠ .keep)
    (bytes : List UInt8) :
    ∃ fuel, Copied program.code.toList config bytes
      ((new program config (.ofBytes bytes) (.empty none)).run fuel) := by
  have hencode : Source.encode (.bytes copying) .utf8 = .ok copying := rfl
  obtain ⟨stripped, hbare⟩ := (Program.exists_load_iff hencode).mpr copying_balanced
  obtain ⟨hbareLoaded, hbareCode⟩ := Program.loaded_of_load hbare
  have hstripped : stripped.code.toList = copying := (Except.ok.inj hbareCode).symm
  have hstrips : Machine.Strips ⟨stripped, config⟩ ⟨program, config⟩ :=
    ⟨rfl, hstripped.trans hcode.symm, hloaded, hbareLoaded⟩
  have hcopies : Machine.Copies ⟨stripped, config⟩ := ⟨hbareLoaded, hstripped⟩
  have hsome : stripped.code.size ≠ 0 := by
    rw [hcopies.size_eq]
    decide
  have hsink : (Sink.empty none).failure = none := rfl
  obtain ⟨bareFuel, hcopied⟩ := exists_copied hcopies hatEnd bytes
  obtain ⟨fuel, hsame, hends⟩ :=
    exists_commented_run hstrips hsome (some bytes) hsink bareFuel
  rw [Input.given_some] at hends
  refine ⟨fuel, ?_⟩
  rcases hends with ⟨going, hgoing⟩ | halike
  · rw [hgoing] at hcopied
    contradiction
  · exact hcopied.of_endsAlike hcode halike hsame.output

end Interpreter

namespace Execution

open Interpreter

/-- A program that copies its input, with comments anywhere in it, loads, and its run ends and is
reported. If the input has a zero byte, the program has halted and written what is in front of the
first one. If it has none, all of the input has been written. Then the program has halted if the end
of the input leaves a zero. If the end of the input is a fault, it is reported at the first `,` of
the code if there is no input and at the second otherwise, with the last byte of the input in the
cell, or with zero if there is none. -/
theorem copying_reports_input_up_to_zero {source : Source} {code : List UInt8}
    (hencode : source.encode .utf8 = .ok code) (hcode : withoutComments code = copying)
    {config : Config} (hatEnd : config.atEnd ≠ .keep) (bytes : List UInt8) :
    ∃ program fuel report, Program.load source .utf8 = .ok program ∧
      runProgram program config (some bytes) fuel = .ok report ∧
        (0 ∈ bytes → report.ok = true ∧ report.output = bytes.takeWhile (· ≠ 0)) ∧
        (0 ∉ bytes → report.output = bytes) ∧
        (0 ∉ bytes → config.atEnd = .zero → report.ok = true) ∧
        (0 ∉ bytes → config.atEnd = .fault → ∃ (fault : Fault) (position : Nat),
          report.fault = some fault ∧ fault.kind = .inputExhausted ∧
            fault.cell = some ((bytes.getLast?.getD 0).toNat : Int) ∧ fault.ip = position ∧
              code[position]? = some input.byte ∧
                (code.take position).count input.byte = if bytes = [] then 0 else 1) := by
  have hbalanced := balanced_of_withoutComments_eq copying_balanced hcode
  obtain ⟨program, hload⟩ := (Program.exists_load_iff hencode).mpr hbalanced
  obtain ⟨hloaded, hprogram⟩ := Program.loaded_of_load hload
  obtain rfl : code = program.code.toList := Except.ok.inj (hencode.symm.trans hprogram)
  obtain ⟨fuel, hcopied⟩ := exists_copied_of_withoutComments hloaded hcode hatEnd bytes
  generalize hrun : (new program config (.ofBytes bytes) (.empty none)).run fuel = answer at hcopied
  obtain ⟨report, last, hreport, houtput, hends⟩ :=
    exists_report_of_run hloaded (some bytes) fuel hrun hcopied.not_unfinished
  refine ⟨program, fuel, report, hload, hreport, ?_⟩
  cases hcopied with
  | halted hzero hwritten =>
      rcases hends with ⟨hanswer, hfault⟩ | ⟨fault, hanswer, -⟩
      · obtain ⟨-, rfl⟩ := Attempt.done.inj hanswer
        have hok : report.ok = true := by rw [Report.ok, hfault]; rfl
        refine ⟨fun _ => ⟨hok, houtput.trans hwritten⟩, fun hnonzero => ?_, fun _ _ => hok, ?_⟩
        · rw [houtput, hwritten, List.takeWhile_eq_self_iff]
          exact fun byte hbyte => decide_eq_true fun hbyteZero => hnonzero (hbyteZero ▸ hbyte)
        · intro hnonzero hpolicy
          rcases hzero with hzero | hzero
          · exact absurd hzero hnonzero
          · exact nomatch hpolicy.symm.trans hzero
      · contradiction
  | @exhausted _ fault position hzero hpolicy hwritten hkind hcell hip hreads hcount =>
      rcases hends with ⟨hanswer, -⟩ | ⟨other, hanswer, hfault⟩
      · contradiction
      · obtain ⟨hreason, rfl⟩ := Attempt.refused.inj hanswer
        obtain rfl := Failure.fault.inj (RunError.failure.inj hreason)
        refine ⟨fun hmem => absurd hmem hzero, fun _ => houtput.trans hwritten, ?_, ?_⟩
        · intro _ hother
          exact nomatch hpolicy.symm.trans hother
        · exact fun _ _ => ⟨fault, position, hfault, hkind, hcell, hip, hreads, hcount⟩

/-- Two bytes, in a program with a comment in front of the code and one in the loop: the end of the
input is found at the second `,`, which stands at position 5. -/
theorem copying_reports_input_up_to_zero_of_two_bytes :
    let code : List UInt8 := [0x21, 0x2C, 0x5B, 0x2E, 0x21, 0x2C, 0x5D]
    let config : Config := ⟨1, by decide, .sixteen, .trap, .trap, .fault⟩
    Source.encode (.bytes code) .utf8 = .ok code ∧ withoutComments code = copying ∧
      config.atEnd ≠ .keep ∧
      ∃ program fuel report fault, Program.load (.bytes code) .utf8 = .ok program ∧
        runProgram program config (some [7, 9]) fuel = .ok report ∧ report.output = [7, 9] ∧
          report.fault = some fault ∧ fault.ip = 5 ∧ fault.cell = some 9 := by
  intro code config
  have hcode : withoutComments code = copying := by decide
  have hsecond : ∀ position < code.length, code[position]? = some input.byte →
      (code.take position).count input.byte = 1 → position = 5 := by decide
  obtain ⟨program, fuel, report, hload, hreport, -, houtput, -, hfault⟩ :=
    @copying_reports_input_up_to_zero (.bytes code) code rfl hcode config (by decide) [7, 9]
  obtain ⟨fault, position, hfault, -, hcell, hip, hreads, hcount⟩ := hfault (by decide) rfl
  have hlt := (List.getElem?_eq_some_iff.mp hreads).choose
  obtain rfl := hsecond position hlt hreads hcount
  exact ⟨rfl, hcode, by decide, program, fuel, report, fault, hload, hreport,
    houtput (by decide), hfault, hip, hcell⟩

end Execution

end TapeMachine
