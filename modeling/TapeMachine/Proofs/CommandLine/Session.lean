/-
# Sessions and executions

A session is an execution of its program file with the settings and the input that its command line
names: it ends if the execution does, it writes what the execution reports as output, and its exit
code tells whether the execution was all right. A fault is shown as the execution reports it. What
keeps the program from being run is told by the exit code as well, and then nothing is written.
-/

import TapeMachine.Proofs.CommandLine.Louder
import TapeMachine.Proofs.CommandLine.Preparation
import TapeMachine.Proofs.Execution.Input
import TapeMachine.Proofs.Execution.Report
import TapeMachine.Proofs.Machine.Lockstep

namespace TapeMachine

namespace Interpreter

/-- What has been logged before a run makes no difference to it. -/
theorem run_logged_alike (program : Program) (config : Config) (input : Input) (output : Sink)
    (log : Array Event) (fuel : Nat) :
    Attempt.Alike (RunError.OfKind fun _ => False)
      (fun interpreter companion : Interpreter =>
        companion.state.output = interpreter.state.output)
      ((new program config input output).run fuel)
      ({ new program config input output with state.log := log }.run fuel) := by
  by_cases hcode : program.code.size = 0
  · rw [run_new_of_size_eq_zero hcode, run_of_size_eq_zero rfl hcode (blank_read config)]
    exact .refused rfl
  · have hconfig := config.alike_self fun _ => False
    have hlockstep := hconfig.lockstep program
    rw [run_new_eq hcode, run_eq rfl hcode]
    refine (hlockstep.answer_alike fuel
      (hlockstep.log (hconfig.initial_abreast program input output) #[] log)).mono ?_
    exact fun _ _ habreast => habreast.alongside.output

end Interpreter

namespace CommandLine

/-- The exit tells what the report says: it has written its output, its code tells whether the
program has halted, and a fault is shown with its kind and its message on one line and with its
instant on the next. -/
structure Tells (report : Report) (ending : Exit) : Prop where
  stdout : ending.stdout = report.output
  code : ending.code = if report.ok then 0 else 1
  fault : ∀ fault, report.fault = some fault → ∃ before after, ending.stderr =
    before ++ s!"\n{fault.kind.name}: {fault.message}\n{fault.describe}\n" ++ after

namespace Session

/-- Standard output that does not fail is flushed, and then the exit tells how the run has ended. -/
theorem conclude_tells {request : Request} {times : Times} {state : State} {fault : Option Fault}
    {report : Report} (hreliable : state.output.failure = none)
    (hbytes : state.output.bytes.toList = report.output) (hfault : report.fault = fault) :
    Tells report (conclude request times state fault) := by
  have hflush : state.output.flush =
      .done () { state.output with flushes := state.output.flushes + 1 } := by
    simp [Sink.flush, Sink.error?, hreliable]
  rw [conclude.eq_def]
  simp only [hflush]
  refine ⟨hbytes, ?_, ?_⟩
  · rw [Report.ok, hfault]
    cases fault <;> rfl
  · intro found hfound
    obtain rfl := hfault.symm.trans hfound
    exact ⟨_, _, rfl⟩

section Finish

variable {answer other : Attempt RunError Interpreter Ending}
  (halike : Attempt.Alike (RunError.OfKind fun _ => False)
    (fun interpreter companion : Interpreter =>
      companion.state.output = interpreter.state.output) answer other)

include halike

theorem finish_unfinished (hreport : Execution.reportOn answer = .error .unfinished)
    (request : Request) (times : Times) : finish request times other = .ok none := by
  obtain ⟨last, rfl⟩ := Execution.reportOn_eq_unfinished hreport
  obtain ⟨reached, rfl, -⟩ := halike.exists_of_done
  rfl

/-- A session ends as the report on its run tells. -/
theorem finish_tells (hreliable : answer.state.state.output.failure = none) {report : Report}
    (hreport : Execution.reportOn answer = .ok report) (request : Request) (times : Times) :
    ∃ ending, finish request times other = .ok (some ending) ∧ Tells report ending := by
  obtain ⟨last, hbytes, ⟨rfl, hfault⟩ | ⟨fault, rfl, hfault⟩⟩ := Execution.reportOn_eq_ok hreport
  · obtain ⟨reached, rfl, houtput⟩ := halike.exists_of_done
    have hsink : reached.state.output.failure = none := houtput ▸ hreliable
    exact ⟨_, rfl, conclude_tells hsink (houtput ▸ hbytes.symm) hfault⟩
  · obtain ⟨reached, rfl, houtput⟩ :=
      halike.exists_of_refused (Failure.not_ofKind_false (.fault fault))
    have hsink : reached.state.output.failure = none := houtput ▸ hreliable
    exact ⟨_, rfl, conclude_tells hsink (houtput ▸ hbytes.symm) hfault⟩

end Finish

section SameRun

variable {request companion : Request} (hsame : request.SameRun companion)

include hsame

theorem prepare_sameRun (host : Host) (files : FileSystem) (stdin : Stream) (stdout : Sink) :
    prepare host files companion stdin stdout =
      (prepare host files request stdin stdout).map ({ · with request := companion }) := by
  rw [prepare, prepare, hsame.settings, hsame.program, hsame.input]
  cases request.settings.accept host with
  | error error => rfl
  | ok accepted =>
      dsimp only
      cases ProgramFile.read files request.program ProgramFile.sizeLimit with
      | error error => rfl
      | ok code =>
          dsimp only
          cases Program.ofBytes code with
          | error report => rfl
          | ok program =>
              dsimp only
              cases openInput files request.input stdin with
              | error obstacle => rfl
              | ok input =>
                  dsimp only
                  cases accepted.config host <;> rfl

end SameRun

end Session

/-- What a session does but for what it shows on the error output. -/
def outcome (ending : Except Crash (Option Exit)) : Except Crash (Option (Nat × List UInt8)) :=
  ending.map (·.map fun ending => (ending.code, ending.stdout))

namespace Session

theorem outcome_finish (answer : Attempt RunError Interpreter Ending)
    (request companion : Request) (times others : Times) :
    outcome (finish companion others answer) = outcome (finish request times answer) := by
  have hconclude : ∀ (state : State) (fault : Option Fault),
      outcome (.ok (some (conclude companion others state fault))) =
        outcome (.ok (some (conclude request times state fault))) := by
    intro state fault
    rw [conclude.eq_def, conclude.eq_def]
    cases state.output.flush <;> rfl
  cases answer with
  | done ending last =>
      cases ending with
      | halted => exact hconclude last.state none
      | unfinished => rfl
  | refused error last =>
      cases error with
      | spent => rfl
      | failure reason =>
          cases reason with
          | fault found => exact hconclude last.state (some found)
          | cell error | jump error | code error | output error => rfl

end Session

/-- Two command lines that ask for the same run have the same outcome. -/
theorem outcome_run {words others : List String} {request companion : Request}
    (hparse : Request.parse words = .ok request) (hother : Request.parse others = .ok companion)
    (hsame : request.SameRun companion) (host : Host) (files : FileSystem) (stdin : Stream)
    (stdout : Sink) (times laps : Times) (fuel : Nat) :
    outcome (run host files others stdin stdout laps fuel) =
      outcome (run host files words stdin stdout times fuel) := by
  rw [run, run]
  simp only [hparse, hother, Session.prepare_sameRun hsame]
  cases Session.prepare host files request stdin stdout with
  | error hindrance =>
      simp only [Except.map, Session.giveUp]
      cases Session.report hindrance.2 <;> rfl
  | ok session => exact Session.outcome_finish _ _ _ _ _

section Run

variable {words : List String} {request : Request} {host : Host} {files : FileSystem}
  {stdin : Stream} {stdout : Sink}

theorem run_of_obstacle (hparse : Request.parse words = .ok request) {events : List Event}
    {obstacle : Obstacle} {message : String}
    (hprepare : Session.prepare host files request stdin stdout = .error (events, obstacle))
    (hreport : Session.report obstacle = .ok message) (times : Times) (fuel : Nat) :
    run host files words stdin stdout times fuel = .ok (some {
      code := 1, stdout := []
      stderr := s!"{shownLog request.verbosity events}{message}\n" }) := by
  simp only [run, hparse, hprepare, Session.giveUp, hreport]

theorem run_of_session (hparse : Request.parse words = .ok request) {session : Session}
    (hprepare : Session.prepare host files request stdin stdout = .ok session) (times : Times)
    (fuel : Nat) :
    run host files words stdin stdout times fuel =
      Session.finish request times (session.interpreter.run fuel) := by
  simp only [run, hparse, hprepare]

end Run

namespace Session

/-- The run of a session ends with the report on its program, whatever has been logged before. -/
theorem finish_agrees {program : Program} (hloaded : program.Loaded) (config : Config)
    (data : List UInt8) (log : Array Event) (request : Request) (times : Times) (fuel : Nat) :
    (Execution.runProgram program config (some data) fuel = .error .unfinished ∧
        finish request times
          ({ Interpreter.new program config (.ofBytes data) (.empty none) with
            state.log := log }.run fuel) = .ok none) ∨
      ∃ report ending, Execution.runProgram program config (some data) fuel = .ok report ∧
        finish request times
          ({ Interpreter.new program config (.ofBytes data) (.empty none) with
            state.log := log }.run fuel) = .ok (some ending) ∧
        Tells report ending := by
  have halike :=
    Interpreter.run_logged_alike program config (.ofBytes data) (.empty none) log fuel
  have hreliable : ((Interpreter.new program config (.ofBytes data)
      (.empty none)).run fuel).state.state.output.failure = none := by
    obtain ⟨last, hlast⟩ :=
      Interpreter.exists_run_new_state_eq_advance program config (.ofBytes data) (.empty none) fuel
    rw [hlast]
    exact Machine.advance_failure _ fuel _
  rcases Execution.unfinished_or_reported hloaded config (some data) fuel with
    hunfinished | ⟨report, hreport⟩
  · exact .inl ⟨hunfinished, finish_unfinished halike hunfinished request times⟩
  · obtain ⟨ending, hfinish, htells⟩ := finish_tells halike hreliable hreport request times
    exact .inr ⟨report, ending, hreport, hfinish, htells⟩

end Session

/-- A session next to the execution of its program file, with standard output that does not fail.
What keeps the program from being run is told by the exit code, and nothing is written then. If
there is nothing of that sort, the session ends whenever the execution does, and its exit tells
what the report on the execution says. Command lines that ask for the same run have the same
outcome; and a flag for statistics or for more logging asks for the same run wherever it is added,
which in front of the other words it always may be. -/
theorem session_agrees_with_execution {words : List String} {request : Request}
    (hparse : Request.parse words = .ok request) {host : Host} {files : FileSystem}
    (hordinary : Ordinary host files request) (stdin : List UInt8) :
    (Hindered host files request → ∀ times fuel, ∃ stderr,
        run host files words (.ofBytes stdin) (.empty none) times fuel =
          .ok (some { code := 1, stdout := [], stderr })) ∧
      (¬ Hindered host files request → ∃ accepted data,
        request.settings.accept host = .ok accepted ∧ Reads files request stdin data ∧
          ∀ times fuel,
            (Execution.runFile host files request.program accepted (some data) fuel =
                .error .unfinished ∧
              run host files words (.ofBytes stdin) (.empty none) times fuel = .ok none) ∨
            ∃ report ending,
              Execution.runFile host files request.program accepted (some data) fuel = .ok report ∧
                run host files words (.ofBytes stdin) (.empty none) times fuel = .ok (some ending) ∧
                Tells report ending) ∧
      (∀ others companion, Request.parse others = .ok companion → request.SameRun companion →
        ∀ times laps fuel,
          outcome (run host files others (.ofBytes stdin) (.empty none) laps fuel) =
            outcome (run host files words (.ofBytes stdin) (.empty none) times fuel)) ∧
      (∀ front back word flag short companion, words = front ++ back → "--" ∉ front →
        Word.classify word = .ok (.flag flag short none) → flag = .stats ∨ flag = .verbose →
          Request.parse (front ++ word :: back) = .ok companion → request.SameRun companion) ∧
      Request.parse ("--stats" :: words) = .ok { request with stats := true } ∧
      Request.parse ("-v" :: words) =
        .ok { request with verbosity := request.verbosity + 1 } := by
  have htyped := Request.typed_of_parse hparse
  have hprepared := Session.prepare_prepared htyped hordinary stdin (.empty none)
  generalize hprepare : Session.prepare host files request (.ofBytes stdin) (.empty none) =
    preparation at hprepared
  refine ⟨?_, ?_, ?_, ?_, ?_, ?_⟩
  · intro hhindered times fuel
    cases hprepared with
    | hindered _ hreport => exact ⟨_, run_of_obstacle hparse hprepare hreport times fuel⟩
    | ready hready => exact absurd hhindered hready
  · intro hready
    cases hprepared with
    | hindered hhindered => exact absurd hhindered hready
    | @ready accepted program config data _ haccept hreads hloaded hrun =>
        refine ⟨accepted, data, haccept, hreads, fun times fuel => ?_⟩
        rw [hrun, run_of_session hparse hprepare]
        exact Session.finish_agrees hloaded config data _ request times fuel
  · intro others companion hother hsame times laps fuel
    exact outcome_run hparse hother hsame host files _ _ times laps fuel
  · rintro front back word flag short companion rfl hfront hclassify hflag hcompanion
    obtain ⟨stats, verbosity, hloudens⟩ := Request.exists_loudens hclassify hflag
    obtain ⟨original, horiginal, rfl⟩ := Request.parse_insert hloudens hfront hcompanion
    obtain rfl := Except.ok.inj (hparse.symm.trans horiginal)
    exact request.louden_sameRun stats verbosity
  · rw [Request.parse_cons Request.stats_loudens, hparse]
    simp [Except.map, Request.louden]
  · rw [Request.parse_cons Request.verbose_loudens, hparse]
    simp [Except.map, Request.louden]

/-- A program that writes what it has read is run on one byte, until it finds no other to read. With
more logging in the middle of the command line it ends the same, and where there are no files the
command line ends before the run. -/
theorem session_agrees_with_execution_of_copy :
    ∃ files barren request,
      Request.parse ["--tape-size", "2", "--eof", "fault", "copy"] = .ok request ∧
      Ordinary .least files request ∧ ¬ Hindered .least files request ∧
      (∃ ending, run .least files ["--tape-size", "2", "--eof", "fault", "copy"] (.ofBytes [65])
          (.empty none) ⟨"0.01", "0.02"⟩ 9 = .ok (some ending) ∧
        ending.code = 1 ∧ ending.stdout = [65] ∧ ∃ before after, ending.stderr = before ++
          "\nInputExhausted: no more input to read\nip=2 head=0 op=',' cell=65\n" ++ after) ∧
      (∀ laps, outcome (run .least files ["--tape-size", "2", "-v", "--eof", "fault", "copy"]
        (.ofBytes [65]) (.empty none) laps 9) = .ok (some (1, [65]))) ∧
      Ordinary .least barren request ∧ Hindered .least barren request ∧
      ∃ stderr, run .least barren ["--tape-size", "2", "--eof", "fault", "copy"] (.ofBytes [65])
        (.empty none) ⟨"0.01", "0.02"⟩ 9 = .ok (some { code := 1, stdout := [], stderr }) := by
  let files : FileSystem := fun _ => .ok [0x2C, 0x2E, 0x2C]
  let barren : FileSystem := fun _ => .error (.system .notFound)
  let request : Request :=
    ⟨"copy", { tapeSize := .integer 2, atEnd := .text "fault" }, .nothing, false, 0⟩
  have hparse : Request.parse ["--tape-size", "2", "--eof", "fault", "copy"] = .ok request := rfl
  have haccept : request.settings.accept .least =
      .ok ⟨.cells 2 (by decide), .eight, false, .wrap, .trap, .fault⟩ := rfl
  have hroom : ∀ accepted cells pos, request.settings.accept .least = .ok accepted →
      accepted.tapeSize = .cells cells pos →
      Accepted.obstacle? .least cells accepted.width = none := by
    intro accepted cells pos haccepted hcells
    obtain rfl := Except.ok.inj (haccept.symm.trans haccepted)
    obtain rfl := AcceptedSize.cells.inj hcells
    rfl
  have hordinary : Ordinary .least files request :=
    ⟨by simp [request], by simp [request], by simp [files], by simp [request], hroom⟩
  have hready : ¬ Hindered .least files request := by
    have hload : ∃ program, Program.load (.bytes [0x2C, 0x2E, 0x2C]) .utf8 = .ok program :=
      ⟨⟨#[0x2C, 0x2E, 0x2C], #[none, none, none]⟩, by decide +kernel⟩
    have hbalanced : Balanced [0x2C, 0x2E, 0x2C] :=
      (Program.exists_load_iff (rfl : Source.encode (.bytes _) .utf8 = _)).mp hload
    exact not_hindered haccept rfl (by decide) hbalanced (.standard rfl : Reads _ _ [65] _)
  have hreport : Execution.runFile .least files request.program
      ⟨.cells 2 (by decide), .eight, false, .wrap, .trap, .fault⟩ (some [65]) 9 =
        .ok ⟨[65], some ⟨.inputExhausted, "no more input to read", 2, 0, some 0x2C, some 65⟩,
          ⟨2, 0, some 0x2C, 65, 2⟩⟩ := by decide +kernel
  have hbarren : Ordinary .least barren request :=
    ⟨by simp [request], by simp [request], by simp [barren], by simp [request], hroom⟩
  have hhindered : Hindered .least barren request := .unreadable rfl
  obtain ⟨hstopped, -⟩ := session_agrees_with_execution hparse hbarren [65]
  obtain ⟨-, hagree, halike, hadded, -⟩ := session_agrees_with_execution hparse hordinary [65]
  have hverbose : Request.parse ["--tape-size", "2", "-v", "--eof", "fault", "copy"] =
      .ok { request with verbosity := 1 } := rfl
  have hsame : request.SameRun { request with verbosity := 1 } :=
    hadded ["--tape-size", "2"] ["--eof", "fault", "copy"] "-v" .verbose true _ rfl (by decide)
      rfl (.inr rfl) hverbose
  obtain ⟨accepted, data, haccepted, hreads, hagree⟩ := hagree hready
  obtain rfl := Except.ok.inj (haccept.symm.trans haccepted)
  obtain rfl : [65] = data := by
    cases hreads with
    | standard => rfl
    | file hinput => cases hinput
  rcases hagree ⟨"0.01", "0.02"⟩ 9 with
    ⟨hunfinished, -⟩ | ⟨report, ending, hreported, hrun, htells⟩
  · rw [hreport] at hunfinished
    cases hunfinished
  · obtain rfl := Except.ok.inj (hreport.symm.trans hreported)
    obtain ⟨before, after, hstderr⟩ := htells.fault _ rfl
    refine ⟨files, barren, request, hparse, hordinary, hready,
      ⟨ending, hrun, htells.code, htells.stdout, before, after, ?_⟩, fun laps => ?_,
      hbarren, hhindered, hstopped hhindered _ _⟩
    · rw [hstderr]
      rfl
    · have htold : (ending.code, ending.stdout) = (1, [65]) := Prod.ext htells.code htells.stdout
      rw [halike _ _ hverbose hsame ⟨"0.01", "0.02"⟩ laps 9, hrun, ← htold]
      rfl

end CommandLine

end TapeMachine
