/-
# Runs without comments

A program and what is left of it without comments run alike. The one halts, meets a fault or goes
on for ever if and only if the other does, with the same tape, the same output and the same rest of
the input; a fault is the same but for its position, which is renumbered; and the program with
comments takes one step more for every comment that it executes.
-/

import TapeMachine.Proofs.Interpreter.Answer
import TapeMachine.Proofs.Machine.Comments
import TapeMachine.Proofs.Machine.Refusal

namespace TapeMachine

open Instruction

namespace Interpreter

/-- What a run with comments and a run without them have in common: all but the position and the
number of steps, which differs by the comments that have been executed since `start`. -/
structure SameButComments (machine : Machine) (start commented bare : State) : Prop where
  tape : bare.tape = commented.tape
  input : bare.input = commented.input
  output : bare.output = commented.output
  steps : commented.steps = bare.steps + machine.comments commented.steps start

/-- How a run of `code` ends and how the run without its comments ends. -/
inductive EndsAlike (code : List UInt8) :
    Attempt RunError Interpreter Ending → Attempt RunError Interpreter Ending → Prop
  | halted {commented bare : Interpreter} :
      EndsAlike code (.done .halted commented) (.done .halted bare)
  | faulted {commented bare : Interpreter} {fault : Fault} {position : Nat}
      {instruction : Instruction} (hip : fault.ip = position)
      (hbyte : code[position]? = some instruction.byte) (hop : fault.op = some instruction.byte) :
      EndsAlike code (.refused (.failure (.fault fault)) commented)
        (.refused (.failure (.fault { fault with ip := rank code position })) bare)

variable {program stripped : Program} {config : Config} {input : Option (List UInt8)}
  {output : Sink} {count bareCount : Nat} {last reached : State}

/-- Machines that are level have the same in common as their runs. -/
theorem sameButComments_of_level
    (hlevel : Machine.Level ⟨program, config⟩ ⟨stripped, config⟩
      (Machine.initial ⟨program, config⟩ (.given input) output)
      (Machine.initial ⟨stripped, config⟩ (.given input) output) count bareCount last reached)
    (log other : Array Event) :
    SameButComments ⟨program, config⟩
      (Machine.initial ⟨program, config⟩ (.given input) output)
      { last with log } { reached with log := other } where
  tape := hlevel.counterpart.tape.related.symm
  input := hlevel.counterpart.input
  output := hlevel.counterpart.output
  steps := by
    have hsteps : last.steps = count := hlevel.reaches.steps_eq.trans (Nat.zero_add count)
    have hbareSteps : reached.steps = bareCount :=
      hlevel.bare_reaches.steps_eq.trans (Nat.zero_add bareCount)
    rw [hsteps, hbareSteps]
    exact hlevel.count_eq

variable {state other : State} {position : Nat} {instruction : Instruction}

theorem endsAlike_of_fault (hstrips : Machine.Strips ⟨stripped, config⟩ ⟨program, config⟩)
    (hpart : Machine.Counterpart ⟨program, config⟩ state other)
    (hat : Machine.At ⟨program, config⟩ state position instruction.byte) (found : Fault)
    {commented bare : Interpreter} :
    EndsAlike program.code.toList
      (.refused (.failure (.fault (Machine.locate ⟨program, config⟩ found state.ip))) commented)
      (.refused (.failure (.fault (Machine.locate ⟨stripped, config⟩ found other.ip))) bare) := by
  rw [hstrips.locate_eq hpart hat]
  refine .faulted hat.ip_eq hat.byte_eq ?_
  rw [Machine.locate, hat.fetch_eq]
  rfl

/-- However far the program with comments is run, the bare program can be run as far. -/
theorem exists_bare_run (hstrips : Machine.Strips ⟨stripped, config⟩ ⟨program, config⟩)
    (hsome : stripped.code.size ≠ 0) (input : Option (List UInt8)) (hsink : output.failure = none)
    (fuel : Nat) :
    ∃ bareFuel,
      SameButComments ⟨program, config⟩
          (Machine.initial ⟨program, config⟩ (.given input) output)
          ((new program config (.given input) output).run fuel).state.state
          ((new stripped config (.given input) output).run bareFuel).state.state ∧
        ((∃ going, (new program config (.given input) output).run fuel =
            .done .unfinished going) ∨
          EndsAlike program.code.toList ((new program config (.given input) output).run fuel)
            ((new stripped config (.given input) output).run bareFuel)) := by
  have hanswers : Answers ⟨program, config⟩ _ fuel
      ((new program config (.given input) output).run fuel) :=
    run_new_answers hstrips.loaded (hstrips.size_ne_zero hsome) hsink fuel
  generalize (new program config (.given input) output).run fuel = answer at hanswers ⊢
  cases hanswers with
  | unfinished hreaches hrunning =>
      obtain ⟨bareCount, reached, hlevel⟩ := hstrips.exists_level hreaches
      obtain ⟨log, hstate⟩ := exists_run_new_state_eq hsome hlevel.bare_reaches
      refine ⟨bareCount, ?_, .inl ⟨_, rfl⟩⟩
      rw [hstate]
      exact sameButComments_of_level hlevel _ log
  | halted hreaches hhalted =>
      obtain ⟨bareCount, reached, hlevel⟩ := hstrips.exists_level hreaches
      have hother := hstrips.hasHalted hlevel.counterpart hhalted
      refine ⟨bareCount, ?_⟩
      rw [run_new_of_halted hsome hlevel.bare_reaches hother]
      exact ⟨sameButComments_of_level hlevel _ _, .inr .halted⟩
  | faulted hreaches hrunning hstep hfault =>
      obtain ⟨bareCount, reached, hlevel⟩ := hstrips.exists_level hreaches
      obtain ⟨position, instruction, behind, hat, hother⟩ :=
        hlevel.refused hstrips hrunning hstep
      have hgoing := (hstrips.at_rank hlevel.counterpart hat).hasHalted_eq_false
      -- A fault leaves both states as they were, so that they still correspond.
      obtain ⟨rfl, -⟩ :=
        Machine.blocked_of_step (hlevel.reaches.steady (Input.steady_given input)) hstep
      obtain ⟨rfl, -⟩ :=
        Machine.blocked_of_step (hlevel.bare_reaches.steady (Input.steady_given input)) hother
      obtain rfl := hfault
      refine ⟨bareCount + 1, ?_⟩
      rw [run_new_of_fault hsome hlevel.bare_reaches hgoing hother]
      exact ⟨sameButComments_of_level hlevel _ _,
        .inr (endsAlike_of_fault hstrips hlevel.counterpart hat _)⟩

/-- However far the bare program is run, the program with comments can be run as far. -/
theorem exists_commented_run (hstrips : Machine.Strips ⟨stripped, config⟩ ⟨program, config⟩)
    (hsome : stripped.code.size ≠ 0) (input : Option (List UInt8)) (hsink : output.failure = none)
    (bareFuel : Nat) :
    ∃ fuel,
      SameButComments ⟨program, config⟩
          (Machine.initial ⟨program, config⟩ (.given input) output)
          ((new program config (.given input) output).run fuel).state.state
          ((new stripped config (.given input) output).run bareFuel).state.state ∧
        ((∃ going, (new stripped config (.given input) output).run bareFuel =
            .done .unfinished going) ∨
          EndsAlike program.code.toList ((new program config (.given input) output).run fuel)
            ((new stripped config (.given input) output).run bareFuel)) := by
  have hcode := hstrips.size_ne_zero hsome
  have hanswers : Answers ⟨stripped, config⟩ _ bareFuel
      ((new stripped config (.given input) output).run bareFuel) :=
    run_new_answers hstrips.bare_loaded hsome hsink bareFuel
  generalize (new stripped config (.given input) output).run bareFuel = answer
    at hanswers ⊢
  cases hanswers with
  | unfinished hreaches hrunning =>
      obtain ⟨count, last, hlevel⟩ := hstrips.exists_level_of_bare hreaches
      obtain ⟨log, hstate⟩ := exists_run_new_state_eq hcode hlevel.reaches
      refine ⟨count, ?_, .inl ⟨_, rfl⟩⟩
      rw [hstate]
      exact sameButComments_of_level hlevel log _
  | halted hreaches hhalted =>
      obtain ⟨_, _, hearlier⟩ := hstrips.exists_level_of_bare hreaches
      obtain ⟨count, last, hlevel, hend⟩ := hearlier.exists_halted hstrips hhalted
      refine ⟨count, ?_⟩
      rw [run_new_of_halted hcode hlevel.reaches hend]
      exact ⟨sameButComments_of_level hlevel _ _, .inr .halted⟩
  | faulted hreaches hrunning hstep hfault =>
      obtain ⟨_, _, hearlier⟩ := hstrips.exists_level_of_bare hreaches
      obtain ⟨count, last, hlevel, position, instruction, after, hat, hother⟩ :=
        hearlier.exists_refused hstrips hrunning hstep
      obtain ⟨rfl, -⟩ :=
        Machine.blocked_of_step (hlevel.bare_reaches.steady (Input.steady_given input)) hstep
      obtain ⟨rfl, -⟩ :=
        Machine.blocked_of_step (hlevel.reaches.steady (Input.steady_given input)) hother
      obtain rfl := hfault
      refine ⟨count + 1, ?_⟩
      rw [run_new_of_fault hcode hlevel.reaches hat.hasHalted_eq_false hother]
      exact ⟨sameButComments_of_level hlevel _ _,
        .inr (endsAlike_of_fault hstrips hlevel.counterpart hat _)⟩

/-- Of two runs that end alike neither is still going. -/
theorem EndsAlike.not_unfinished {code : List UInt8}
    {commented bare : Attempt RunError Interpreter Ending}
    (halike : EndsAlike code commented bare) :
    (¬ ∃ going, commented = .done .unfinished going) ∧
      ¬ ∃ going, bare = .done .unfinished going := by
  cases halike with
  | halted => exact ⟨by simp, by simp⟩
  | faulted => exact ⟨by simp, by simp⟩

/-- A program with comments, from any source, loads if and only if what is left of it without them
loads, as long as an instruction is left. However far the one is run, the other can be run so that
the tape, the input and the output are the same and the steps differ by the comments that have
been executed; if the one has halted or met a fault there, so has the other, with the same fault
but for its position, which is that of the same instruction. So the one goes on for ever if and
only if the other does. -/
theorem run_without_comments_agrees {source : Source} {encoding : Encoding} {code : List UInt8}
    (hencode : source.encode encoding = .ok code) (hsome : withoutComments code ≠ []) :
    ((∃ program, Program.load source encoding = .ok program) ↔
        ∃ stripped, Program.load (.bytes (withoutComments code)) encoding = .ok stripped) ∧
      ∀ program stripped : Program, Program.load source encoding = .ok program →
        Program.load (.bytes (withoutComments code)) encoding = .ok stripped →
          ∀ (config : Config) (input : Option (List UInt8)) (output : Sink),
            output.failure = none →
            (∀ fuel, ∃ bareFuel,
              SameButComments ⟨program, config⟩
                  (Machine.initial ⟨program, config⟩ (.given input) output)
                  ((new program config (.given input) output).run fuel).state.state
                  ((new stripped config (.given input) output).run bareFuel).state.state ∧
                ((∃ going, (new program config (.given input) output).run fuel =
                    .done .unfinished going) ∨
                  EndsAlike code ((new program config (.given input) output).run fuel)
                    ((new stripped config (.given input) output).run bareFuel))) ∧
              (∀ bareFuel, ∃ fuel,
                SameButComments ⟨program, config⟩
                    (Machine.initial ⟨program, config⟩ (.given input) output)
                    ((new program config (.given input) output).run fuel).state.state
                    ((new stripped config (.given input) output).run bareFuel).state.state ∧
                  ((∃ going, (new stripped config (.given input) output).run bareFuel =
                      .done .unfinished going) ∨
                    EndsAlike code ((new program config (.given input) output).run fuel)
                      ((new stripped config (.given input) output).run bareFuel))) ∧
                ((∀ fuel, ∃ going, (new program config (.given input) output).run fuel =
                    .done .unfinished going) ↔
                  ∀ fuel, ∃ going, (new stripped config (.given input) output).run fuel =
                    .done .unfinished going) := by
  constructor
  · rw [Program.exists_load_iff hencode, Program.exists_load_iff rfl,
      balanced_withoutComments_iff]
  · intro program stripped hload hbare config input output hsink
    obtain ⟨hloaded, hcode⟩ := Program.loaded_of_load hload
    obtain ⟨hbareLoaded, hbareCode⟩ := Program.loaded_of_load hbare
    obtain rfl : code = program.code.toList := Except.ok.inj (hencode.symm.trans hcode)
    have hstripped : stripped.code.toList = withoutComments program.code.toList :=
      (Except.ok.inj hbareCode).symm
    have hstrips : Machine.Strips ⟨stripped, config⟩ ⟨program, config⟩ :=
      ⟨rfl, hstripped, hloaded, hbareLoaded⟩
    have hsize : stripped.code.size ≠ 0 := by
      intro hzero
      rw [← hstripped] at hsome
      exact hsome (by simpa using hzero)
    have hforward := exists_bare_run hstrips hsize input hsink
    have hbackward := exists_commented_run hstrips hsize input hsink
    refine ⟨hforward, hbackward, ?_, ?_⟩
    · intro hgoes fuel
      obtain ⟨_, -, hgoing | halike⟩ := hbackward fuel
      · exact hgoing
      · exact absurd (hgoes _) halike.not_unfinished.1
    · intro hgoes fuel
      obtain ⟨_, -, hgoing | halike⟩ := hforward fuel
      · exact hgoing
      · exact absurd (hgoes _) halike.not_unfinished.2

/-- A loop that finds no input on its first round, with a comment in front of the loop and one in
it: without the comments the fault is at position 2 instead of 4, after two steps instead of
four. -/
theorem run_without_comments_agrees_of_reading :
    Program.load (.bytes [0x2B, 0x21, 0x5B, 0x21, 0x2C, 0x5D]) .utf8 =
        .ok ⟨#[0x2B, 0x21, 0x5B, 0x21, 0x2C, 0x5D],
          #[none, none, some 5, none, none, some 2]⟩ ∧
      Program.load (.bytes [0x2B, 0x5B, 0x2C, 0x5D]) .utf8 =
        .ok ⟨#[0x2B, 0x5B, 0x2C, 0x5D], #[none, some 3, none, some 1]⟩ ∧
      ∃ (bareFuel : Nat) (bare : Interpreter),
        (new ⟨#[0x2B, 0x5B, 0x2C, 0x5D], #[none, some 3, none, some 1]⟩
            ⟨2, by decide, .eight, .wrap, .trap, .fault⟩ (.given (some []))
              (.empty none)).run bareFuel =
          .refused (.failure (.fault
            ⟨.inputExhausted, "no more input to read", 2, 0, some 0x2C, some 1⟩)) bare ∧
        bare.state.steps = 2 := by
  have hload : Program.load (.bytes [0x2B, 0x21, 0x5B, 0x21, 0x2C, 0x5D]) .utf8 =
      .ok ⟨#[0x2B, 0x21, 0x5B, 0x21, 0x2C, 0x5D],
        #[none, none, some 5, none, none, some 2]⟩ := by decide +kernel
  have hbare : Program.load (.bytes [0x2B, 0x5B, 0x2C, 0x5D]) .utf8 =
      .ok ⟨#[0x2B, 0x5B, 0x2C, 0x5D], #[none, some 3, none, some 1]⟩ := by decide +kernel
  have hrun : (new ⟨#[0x2B, 0x21, 0x5B, 0x21, 0x2C, 0x5D],
        #[none, none, some 5, none, none, some 2]⟩
      ⟨2, by decide, .eight, .wrap, .trap, .fault⟩ (.given (some [])) (.empty none)).run 9 =
      .refused (.failure (.fault
          ⟨.inputExhausted, "no more input to read", 4, 0, some 0x2C, some 1⟩))
        ⟨⟨⟨#[0x2B, 0x21, 0x5B, 0x21, 0x2C, 0x5D], #[none, none, some 5, none, none, some 2]⟩,
            ⟨2, by decide, .eight, .wrap, .trap, .fault⟩⟩,
          ⟨4, ⟨#[1, 0], 0⟩, 4, .ofBytes [], .empty none,
            #[.faulted ⟨.inputExhausted, "no more input to read", 4, 0, some 0x2C, some 1⟩]⟩,
          true⟩ := by decide +kernel
  have hencode : Source.encode (.bytes [0x2B, 0x21, 0x5B, 0x21, 0x2C, 0x5D]) .utf8 =
      .ok [0x2B, 0x21, 0x5B, 0x21, 0x2C, 0x5D] := rfl
  obtain ⟨bareFuel, hsame, hends⟩ :=
    ((run_without_comments_agrees hencode (by decide)).2 _ _ hload hbare
      ⟨2, by decide, .eight, .wrap, .trap, .fault⟩ (some []) (.empty none) rfl).1 9
  rw [hrun] at hsame hends
  generalize hbareRun : run bareFuel (new ⟨#[0x2B, 0x5B, 0x2C, 0x5D], _⟩ _ _ _) = answer
    at hsame hends
  rcases hends with ⟨going, hgoing⟩ | halike
  · exact absurd hgoing (by simp)
  · cases halike with
    | @faulted _ bare _ position _ hip _ _ =>
        obtain rfl : 4 = position := Int.ofNat_inj.mp hip
        have hsteps : 4 = bare.state.steps + 2 := hsame.steps
        exact ⟨hload, hbare, bareFuel, bare, hbareRun, by omega⟩

end Interpreter

end TapeMachine
