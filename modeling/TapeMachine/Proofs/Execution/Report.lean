/-
# Reports on faults

The fault of a report, its snapshot and its output come from three places and are made at three
times. They are nevertheless of one instant: the snapshot and the output are those of the state
that the run has reached after as many steps as the snapshot tells, the fault points at the place,
the cell and the instruction of the snapshot, and these dictate the kind of the fault.
-/

import TapeMachine.Execution
import TapeMachine.Proofs.Interpreter.Answer
import TapeMachine.Proofs.Machine.Refusal

namespace TapeMachine

namespace FaultKind

/-- What a program, a configuration, the unread input and a snapshot have to say for a fault of
each kind. -/
def Dictated (program : Program) (config : Config) (unread : Input) (snapshot : Snapshot) :
    FaultKind → Prop
  | .unspecified => False
  | .emptyProgram => snapshot.op = none ∧ program.code.size = 0
  | .headOverflow =>
      snapshot.op = some Instruction.right.byte ∧ snapshot.head = config.tapeSize - 1
  | .headUnderflow => snapshot.op = some Instruction.left.byte ∧ snapshot.head = 0
  | .dataOverflow =>
      snapshot.op = some Instruction.increment.byte ∧ snapshot.cell = 2 ^ config.width.bits - 1 ∧
        config.overflow = .trap
  | .dataUnderflow =>
      snapshot.op = some Instruction.decrement.byte ∧ snapshot.cell = 0 ∧
        config.underflow = .trap
  | .inputExhausted =>
      snapshot.op = some Instruction.input.byte ∧ config.atEnd = .fault ∧ unread.Exhausted

/-- The kind of fault that an instruction can meet. -/
def ofInstruction : Instruction → FaultKind
  | .right => .headOverflow
  | .left => .headUnderflow
  | .increment => .dataOverflow
  | .decrement => .dataUnderflow
  | .input => .inputExhausted
  | .output | .loopStart | .loopEnd => .unspecified

/-- The kind of fault that can be met where a byte, or no byte, is about to be executed. -/
def ofOp : Option UInt8 → FaultKind
  | none => .emptyProgram
  | some byte => ((Instruction.ofByte? byte).map ofInstruction).getD .unspecified

variable {program : Program} {config : Config} {unread : Input} {snapshot : Snapshot}

theorem Dictated.eq_ofOp {kind : FaultKind}
    (hdictated : kind.Dictated program config unread snapshot) : kind = ofOp snapshot.op := by
  cases kind with
  | unspecified => exact hdictated.elim
  | emptyProgram | headOverflow | headUnderflow | dataOverflow | dataUnderflow | inputExhausted =>
      rw [hdictated.1]
      rfl

/-- The fields of a fault dictate one kind only. -/
theorem Dictated.eq_iff {kind : FaultKind}
    (hdictated : kind.Dictated program config unread snapshot) (other : FaultKind) :
    kind = other ↔ other.Dictated program config unread snapshot := by
  constructor
  · rintro rfl
    exact hdictated
  · intro hother
    exact hdictated.eq_ofOp.trans hother.eq_ofOp.symm

end FaultKind

namespace Machine

variable {machine : Machine} {state : State}

theorem snapshot_of_halted (hstate : state.InRange machine)
    (hhalted : machine.hasHalted state = true) :
    machine.snapshot state =
      .ok ⟨state.ip, state.tape.head, none, state.tape.current, state.steps⟩ := by
  simp [snapshot, currentOp, hhalted, hstate.tape.read_eq]

theorem snapshot_of_fetch (hstate : state.InRange machine)
    (hrunning : machine.hasHalted state = false) {byte : UInt8}
    (hfetch : machine.program.fetch state.ip = .ok byte) :
    machine.snapshot state =
      .ok ⟨state.ip, state.tape.head, some byte, state.tape.current, state.steps⟩ := by
  simp [snapshot, currentOp, hrunning, hfetch, hstate.tape.read_eq]

/-- What an instruction meets points at the cell at the head, and is of the kind that the state
dictates. -/
theorem Blocked.spec {instruction : Instruction} {found : Fault}
    (hblocked : machine.Blocked state instruction found) (hstate : state.InRange machine) :
    found.head = state.tape.head ∧ found.cell = some (state.tape.current : Int) ∧
      found.kind.Dictated machine.program machine.config state.input
        ⟨state.ip, state.tape.head, some instruction.byte, state.tape.current, state.steps⟩ := by
  obtain ⟨cell, hread, hmeets⟩ := hblocked.meets
  obtain rfl : state.tape.current = cell := Except.ok.inj (hstate.tape.read_eq.symm.trans hread)
  have hhead := hstate.tape.head_lt
  cases hmeets with
  | headOverflow hlast =>
      rw [hstate.tape.size_eq] at hlast
      have hend : state.tape.head = machine.config.tapeSize - 1 := by omega
      exact ⟨rfl, rfl, rfl, hend⟩
  | headUnderflow hfirst => exact ⟨rfl, rfl, rfl, hfirst⟩
  | dataOverflow hfull htrap =>
      exact ⟨rfl, rfl, rfl, hfull.trans (Width.largest_eq_two_pow_sub_one _), htrap⟩
  | dataUnderflow hzero htrap => exact ⟨rfl, rfl, rfl, hzero, htrap⟩
  | inputExhausted hpolicy => exact ⟨rfl, rfl, rfl, hpolicy, hblocked.exhausted rfl⟩

end Machine

namespace Report

/-- The fault points at the instant of the snapshot, which dictates its kind. -/
structure PointsAt (program : Program) (config : Config) (unread : Input) (snapshot : Snapshot)
    (fault : Fault) : Prop where
  ip : fault.ip = snapshot.ip
  head : fault.head = snapshot.head
  op : fault.op = snapshot.op
  cell : fault.cell = some (snapshot.cell : Int)
  kind : ∀ kind, fault.kind = kind ↔ kind.Dictated program config unread snapshot

/-- The report describes a state of its run: the snapshot and the output are those of the state
after as many steps as the snapshot tells. A fault points at that state, and without one the
program has halted there. -/
structure Describes (program : Program) (config : Config) (start state : State)
    (report : Report) : Prop where
  reaches : Machine.Reaches ⟨program, config⟩ report.snapshot.steps start state
  snapshot : Machine.snapshot ⟨program, config⟩ state = .ok report.snapshot
  output : report.output = state.output.bytes.toList
  fault : ∀ fault, report.fault = some fault →
    PointsAt program config state.input report.snapshot fault
  halted : report.ok = true →
    report.snapshot.ip = program.code.size ∧ 0 < program.code.size ∧ report.snapshot.op = none

end Report

namespace Execution

open Report

variable {program : Program} {config : Config}

theorem report_eq {machine : Machine} {state : State} {snapshot : Snapshot}
    (hsnapshot : machine.snapshot state = .ok snapshot) (log : Array Event) (spent : Bool)
    (fault : Option Fault) :
    report ⟨machine, { state with log }, spent⟩ fault =
      .ok { output := state.output.bytes.toList, fault, snapshot } := by
  have hlogged : Interpreter.snapshot ⟨machine, { state with log }, spent⟩ = .ok snapshot :=
    hsnapshot
  rw [report, hlogged]

/-- The report on what a run has answered. -/
def reportOn : Attempt RunError Interpreter Ending → Except ExecutionError Report
  | .done .halted interpreter => report interpreter none
  | .done .unfinished _ => .error .unfinished
  | .refused (.failure (.fault fault)) interpreter => report interpreter (some fault)
  | .refused error _ => .error (.run error)

theorem runProgram_eq_reportOn (program : Program) (config : Config)
    (input : Option (List UInt8)) (fuel : Nat) :
    runProgram program config input fuel =
      reportOn ((Interpreter.new program config (.given input) (.empty none)).run fuel) := rfl

theorem report_eq_ok {interpreter : Interpreter} {fault : Option Fault} {report : Report}
    (hreport : Execution.report interpreter fault = .ok report) :
    report.output = interpreter.state.output.bytes.toList ∧ report.fault = fault := by
  rw [Execution.report] at hreport
  split at hreport
  · obtain rfl := Except.ok.inj hreport
    exact ⟨rfl, rfl⟩
  · contradiction

/-- A report is on a run that has halted or met a fault. -/
theorem reportOn_eq_ok {answer : Attempt RunError Interpreter Ending} {report : Report}
    (hreport : reportOn answer = .ok report) :
    ∃ last, report.output = last.state.output.bytes.toList ∧
      (answer = .done .halted last ∧ report.fault = none ∨
        ∃ fault, answer = .refused (.failure (.fault fault)) last ∧ report.fault = some fault) := by
  rw [reportOn.eq_def] at hreport
  split at hreport
  · rename_i last
    obtain ⟨houtput, hfault⟩ := report_eq_ok hreport
    exact ⟨last, houtput, .inl ⟨rfl, hfault⟩⟩
  · contradiction
  · rename_i fault last
    obtain ⟨houtput, hfault⟩ := report_eq_ok hreport
    exact ⟨last, houtput, .inr ⟨fault, rfl, hfault⟩⟩
  · contradiction

/-- A run that is reported to be unfinished has not ended. -/
theorem reportOn_eq_unfinished {answer : Attempt RunError Interpreter Ending}
    (hreport : reportOn answer = .error .unfinished) : ∃ last, answer = .done .unfinished last := by
  have hended : ∀ interpreter fault, report interpreter fault ≠ .error .unfinished := by
    intro interpreter fault hended
    rw [report] at hended
    split at hended
    · contradiction
    · exact nomatch hended
  rw [reportOn.eq_def] at hreport
  split at hreport
  · exact absurd hreport (hended _ _)
  · exact ⟨_, rfl⟩
  · exact absurd hreport (hended _ _)
  · exact nomatch hreport

/-- The end of a run within its steps, as it is reported. -/
theorem describes_of_answers (hloaded : program.Loaded) (hcode : program.code.size ≠ 0)
    (input : Option (List UInt8)) (fuel : Nat) :
    (runProgram program config input fuel = .error .unfinished ∧
        ∃ state, Machine.Reaches ⟨program, config⟩ fuel
            (Machine.initial ⟨program, config⟩ (.given input) (.empty none)) state ∧
          Machine.hasHalted ⟨program, config⟩ state = false) ∨
      ∃ report state, runProgram program config input fuel = .ok report ∧
        Describes program config
          (Machine.initial ⟨program, config⟩ (.given input) (.empty none)) state report := by
  have hanswers : Interpreter.Answers ⟨program, config⟩ _ fuel
      ((Interpreter.new program config (.given input) (.empty none)).run fuel) :=
    Interpreter.run_new_answers hloaded hcode rfl fuel
  have hinitial := Machine.initial_inRange ⟨program, config⟩ (.given input) (.empty none)
  rw [runProgram]
  generalize (Interpreter.new program config (.given input) (.empty none)).run fuel = answer
    at hanswers
  cases hanswers with
  | unfinished hreaches hrunning => exact .inl ⟨rfl, _, hreaches, hrunning⟩
  | @halted count last hreaches hhalted =>
      have hstate := hreaches.inRange hloaded.closed hinitial
      have hsteps : last.steps = count := hreaches.steps_eq.trans (Nat.zero_add count)
      have hsnapshot := Machine.snapshot_of_halted hstate hhalted
      refine .inr ⟨_, last, report_eq hsnapshot _ true none, ?_⟩
      exact {
        reaches := hsteps.symm ▸ hreaches
        snapshot := hsnapshot
        output := rfl
        fault := fun _ hfault => by contradiction
        halted := fun _ => ⟨hstate.ip_eq_of_hasHalted hhalted, Nat.pos_of_ne_zero hcode, rfl⟩ }
  | @faulted count last after found fault hreaches hrunning hstep hfault =>
      have hstate := hreaches.inRange hloaded.closed hinitial
      have hsteps : last.steps = count := hreaches.steps_eq.trans (Nat.zero_add count)
      obtain ⟨rfl, instruction, hblocked⟩ :=
        Machine.blocked_of_step (hreaches.steady (Input.steady_given input)) hstep
      have hsnapshot := Machine.snapshot_of_fetch hstate hrunning hblocked.fetched
      obtain ⟨hhead, hcell, hdictated⟩ := hblocked.spec hstate
      refine .inr ⟨_, after, report_eq hsnapshot _ true (some fault), ?_⟩
      exact {
        reaches := hsteps.symm ▸ hreaches
        snapshot := hsnapshot
        output := rfl
        fault := by
          intro other hother
          obtain rfl := Option.some.inj hother
          rw [hfault]
          refine ⟨rfl, hhead, ?_, hcell, hdictated.eq_iff⟩
          rw [Machine.locate, hblocked.fetched]
          rfl
        halted := fun hok => by contradiction }

/-- A program without code is reported on at once. -/
theorem describes_of_size_eq_zero (hcode : program.code.size = 0) (input : Option (List UInt8))
    (fuel : Nat) :
    ∃ report, runProgram program config input fuel = .ok report ∧
      Describes program config
        (Machine.initial ⟨program, config⟩ (.given input) (.empty none))
        (Machine.initial ⟨program, config⟩ (.given input) (.empty none)) report := by
  have hinitial := Machine.initial_inRange ⟨program, config⟩ (.given input) (.empty none)
  have hhalted : Machine.hasHalted ⟨program, config⟩
      (Machine.initial ⟨program, config⟩ (.given input) (.empty none)) = true := by
    simp [Machine.hasHalted, Machine.initial, hcode]
  have hsnapshot := Machine.snapshot_of_halted hinitial hhalted
  have hdictated : FaultKind.Dictated program config (.given input)
      ⟨0, 0, none, (Tape.blank config.tapeSize).current, 0⟩ .emptyProgram := ⟨rfl, hcode⟩
  rw [runProgram, Interpreter.run_new_of_size_eq_zero hcode]
  refine ⟨_, report_eq hsnapshot _ true (some (Fault.emptyProgram 0)), ?_⟩
  exact {
    reaches := .refl
    snapshot := hsnapshot
    output := rfl
    fault := by
      intro fault hfault
      obtain rfl := Option.some.inj hfault
      refine ⟨rfl, rfl, rfl, ?_, hdictated.eq_iff⟩
      exact congrArg (fun cell : Nat => some (cell : Int)) (Tape.blank_current _).symm
    halted := fun hok => by contradiction }

/-- The run of a loaded program is reported, unless it takes more steps than it is given. -/
theorem unfinished_or_reported (hloaded : program.Loaded) (config : Config)
    (input : Option (List UInt8)) (fuel : Nat) :
    runProgram program config input fuel = .error .unfinished ∨
      ∃ report, runProgram program config input fuel = .ok report := by
  by_cases hcode : program.code.size = 0
  · obtain ⟨report, hreport, -⟩ := describes_of_size_eq_zero hcode input fuel
    exact .inr ⟨report, hreport⟩
  · rcases describes_of_answers hloaded hcode input fuel with
      ⟨hunfinished, -⟩ | ⟨report, -, hreport, -⟩
    · exact .inl hunfinished
    · exact .inr ⟨report, hreport⟩

/-- A run that has ended is reported. -/
theorem exists_report_of_run (hloaded : program.Loaded) (input : Option (List UInt8))
    (fuel : Nat) {answer : Attempt RunError Interpreter Ending}
    (hrun : (Interpreter.new program config (.given input) (.empty none)).run fuel = answer)
    (hended : ∀ going, answer ≠ .done .unfinished going) :
    ∃ report last, runProgram program config input fuel = .ok report ∧
      report.output = last.state.output.bytes.toList ∧
        (answer = .done .halted last ∧ report.fault = none ∨
          ∃ fault, answer = .refused (.failure (.fault fault)) last ∧
            report.fault = some fault) := by
  rcases unfinished_or_reported hloaded config input fuel with hunfinished | ⟨report, hreport⟩
  · rw [runProgram_eq_reportOn, hrun] at hunfinished
    obtain ⟨going, hgoing⟩ := reportOn_eq_unfinished hunfinished
    exact absurd hgoing (hended going)
  · have hanswer := hreport
    rw [runProgram_eq_reportOn, hrun] at hanswer
    obtain ⟨last, houtput, hends⟩ := reportOn_eq_ok hanswer
    exact ⟨report, last, hreport, houtput, hends⟩

/-- What is reported on the run of a loaded program is of one instant. Unless the run takes more
steps than it is given, there is a report, and it describes the state that the run has reached
after as many steps as its snapshot tells: the snapshot and the output are that state's, a fault
points at its position, head, instruction and cell, which dictate the kind of the fault, and if
there is no fault the program has code and has halted at its end. -/
theorem report_describes_one_instant {source : Source} {program : Program}
    (hload : Program.load source .utf8 = .ok program) (config : Config)
    (input : Option (List UInt8)) (fuel : Nat) :
    (∀ (host : Host) (accepted : Accepted), accepted.config host = .ok config →
      runSource host source accepted input fuel = runProgram program config input fuel) ∧
      ((runProgram program config input fuel = .error .unfinished ∧
          ∃ state, Machine.Reaches ⟨program, config⟩ fuel
              (Machine.initial ⟨program, config⟩ (.given input) (.empty none)) state ∧
            Machine.hasHalted ⟨program, config⟩ state = false) ∨
        ∃ report state, runProgram program config input fuel = .ok report ∧
          Describes program config
            (Machine.initial ⟨program, config⟩ (.given input) (.empty none)) state report) := by
  constructor
  · intro host accepted hconfig
    simp only [runSource, hload, hconfig]
  · by_cases hcode : program.code.size = 0
    · obtain ⟨report, hreport, hdescribes⟩ := describes_of_size_eq_zero hcode input fuel
      exact .inr ⟨report, _, hreport, hdescribes⟩
    · exact describes_of_answers (Program.loaded_of_load hload).1 hcode input fuel

/-- A loop that reads until the input is exhausted: the report is on the second time that it
reads, after five steps, with the byte that was read first still in the cell. -/
theorem report_describes_one_instant_of_reading :
    Program.load (.bytes [0x3E, 0x2B, 0x5B, 0x2C, 0x5D]) .utf8 =
        .ok ⟨#[0x3E, 0x2B, 0x5B, 0x2C, 0x5D], #[none, none, some 4, none, some 2]⟩ ∧
      ∃ report state,
        runProgram ⟨#[0x3E, 0x2B, 0x5B, 0x2C, 0x5D], #[none, none, some 4, none, some 2]⟩
            ⟨2, by decide, .eight, .wrap, .trap, .fault⟩ (some [5]) 9 = .ok report ∧
          Describes ⟨#[0x3E, 0x2B, 0x5B, 0x2C, 0x5D], #[none, none, some 4, none, some 2]⟩
            ⟨2, by decide, .eight, .wrap, .trap, .fault⟩
            (Machine.initial
              ⟨⟨#[0x3E, 0x2B, 0x5B, 0x2C, 0x5D], #[none, none, some 4, none, some 2]⟩,
                ⟨2, by decide, .eight, .wrap, .trap, .fault⟩⟩ (.ofBytes [5]) (.empty none))
            state report ∧
          report.snapshot = ⟨3, 1, some 0x2C, 5, 5⟩ := by
  have hload : Program.load (.bytes [0x3E, 0x2B, 0x5B, 0x2C, 0x5D]) .utf8 =
      .ok ⟨#[0x3E, 0x2B, 0x5B, 0x2C, 0x5D], #[none, none, some 4, none, some 2]⟩ := by
    decide +kernel
  have hrun :
      runProgram ⟨#[0x3E, 0x2B, 0x5B, 0x2C, 0x5D], #[none, none, some 4, none, some 2]⟩
          ⟨2, by decide, .eight, .wrap, .trap, .fault⟩ (some [5]) 9 =
        .ok ⟨[], some ⟨.inputExhausted, "no more input to read", 3, 1, some 0x2C, some 5⟩,
          ⟨3, 1, some 0x2C, 5, 5⟩⟩ := by decide +kernel
  rcases (report_describes_one_instant hload ⟨2, by decide, .eight, .wrap, .trap, .fault⟩
    (some [5]) 9).2 with ⟨hunfinished, -⟩ | ⟨report, state, hreport, hdescribes⟩
  · exact absurd (hrun.symm.trans hunfinished) (by simp)
  · obtain rfl := Except.ok.inj (hrun.symm.trans hreport)
    exact ⟨hload, _, state, hrun, hdescribes, rfl⟩

end Execution

end TapeMachine
