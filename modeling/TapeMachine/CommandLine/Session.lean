/-
# Sessions

A session serves one command line: it builds the configuration, reads and loads the program, opens
the input, runs the program and tells how the run has ended. The output of the program goes to
standard output; the log, the errors and the statistics go to the error output, in the order in
which they arise.
-/

import TapeMachine.CommandLine.Request
import TapeMachine.CommandLine.Usage
import TapeMachine.Execution

namespace TapeMachine.CommandLine

/-- How a session ends. -/
structure Exit where
  code : Nat
  stdout : List UInt8
  stderr : String
  deriving DecidableEq

/-- An error that a session does not expect and so does not report. -/
inductive Crash where
  | settings (error : SettingsError)
  | build (error : BuildError)
  | read (error : ReadError)
  /-- The path of the input holds a NUL. -/
  | embeddedNul
  /-- The path of the input is no text. -/
  | inputIsNoPath
  | run (error : RunError)

namespace Crash

def message : Crash → String
  | settings error => error.message
  | build error => error.message
  | read error => error.message
  | embeddedNul => ReadError.embeddedNul.message
  | inputIsNoPath => "expected str, bytes or os.PathLike object, not list"
  | run error => error.message

end Crash

/-- How long loading and running took, in milliseconds as they are printed. -/
structure Times where
  loading : String
  running : String

/-- The least severity that is logged. -/
def threshold : Nat → Severity
  | 0 => .warning
  | 1 => .info
  | _ => .debug

/-- The lines of a log that are shown. -/
def shownLog (verbosity : Nat) (events : List Event) : String :=
  let shown := events.filter fun event => (threshold verbosity).rank ≤ event.severity.rank
  String.join (shown.map fun event => s!"{event.line}\n")

/-- What keeps a session from running its program. -/
inductive Obstacle where
  | settings (error : SettingsError)
  | build (error : BuildError)
  | read (error : ReadError)
  | brackets (report : BracketReport)
  | input (path : String) (error : OpenError)
  | inputNul
  | inputIsNoPath

/-- A session whose program is ready to run. -/
structure Session where
  request : Request
  interpreter : Interpreter

namespace Session

/-- The input that a request asks for. -/
def openInput (files : FileSystem) (input : Setting) (stdin : Stream) : Except Obstacle Stream :=
  match input with
  | .nothing => .ok stdin
  | .text path =>
      match files path with
      | .ok contents => .ok (.ofBytes contents)
      | .error .embeddedNul => .error .inputNul
      | .error (.system error) => .error (.input path error)
  | _ => .error .inputIsNoPath

/-- The event of having loaded a program is shown even if the input cannot be opened, so an
obstacle comes with what has been logged before it. -/
def prepare (host : Host) (files : FileSystem) (request : Request) (stdin : Stream)
    (stdout : Sink) : Except (List Event × Obstacle) Session :=
  match request.settings.accept host with
  | .error error => .error ([], .settings error)
  | .ok accepted =>
      match ProgramFile.read files request.program ProgramFile.sizeLimit with
      | .error error => .error ([], .read error)
      | .ok code =>
          match Program.ofBytes code with
          | .error report => .error ([], .brackets report)
          | .ok program =>
              let loaded := Event.ofProgram program
              match openInput files request.input stdin with
              | .error obstacle => .error ([loaded], obstacle)
              | .ok input =>
                  match accepted.config host with
                  | .error error => .error ([loaded], .build error)
                  | .ok config =>
                      let interpreter := Interpreter.new program config (some input) stdout
                      .ok {
                        request
                        interpreter := {
                          interpreter with state.log := interpreter.state.log.push loaded } }

/-- The message of an obstacle that a session reports, or the crash that it ends in. -/
def report : Obstacle → Except Crash String
  | .settings .cellWidthIsList => .error (.settings .cellWidthIsList)
  | .settings (.unknownField name) => .error (.settings (.unknownField name))
  | .settings (.unwritable error) => .error (.settings (.unwritable error))
  | .settings error => .ok error.message
  | .build error => .error (.build error)
  | .read .embeddedNul => .error (.read .embeddedNul)
  | .read (.request error) => .error (.read (.request error))
  | .read error => .ok error.message
  | .brackets found => .ok found.message
  | .input path error => .ok s!"Error while opening input {path}: {error.reason}"
  | .inputNul => .error .embeddedNul
  | .inputIsNoPath => .error .inputIsNoPath

/-- The end of a session whose program was not run. -/
def giveUp (verbosity : Nat) (events : List Event) (obstacle : Obstacle) : Except Crash Exit :=
  match report obstacle with
  | .error crash => .error crash
  | .ok message =>
      .ok { code := 1, stdout := [], stderr := s!"{shownLog verbosity events}{message}\n" }

/-- The statistics of a run. -/
def statistics (times : Times) (state : State) : String :=
  let dump := match state.tape.dump (some 64) 8 with
    | .ok text => text
    | .error error => error.message
  "================\n"
    ++ s!"Loading took {times.loading} ms\n"
    ++ s!"Execution took {times.running} ms ({state.steps} steps)\n"
    ++ s!"{dump}\n"

/-- What is shown of a fault. -/
def announce (fault : Fault) : String :=
  s!"\n{fault.kind.name}: {fault.message}\n{fault.describe}\n"

/-- The end of a session after a run that halted or met a fault: standard output is flushed once
more, and then the fault and the statistics are shown. -/
def conclude (request : Request) (times : Times) (state : State) (fault : Option Fault) :
    Exit :=
  let log := shownLog request.verbosity state.log.toList
  match state.output.flush with
  | .refused error sink =>
      { code := 1, stdout := sink.bytes.toList
        stderr := s!"{log}Error while writing output: {error.reason}\n" }
  | .done _ sink =>
      let announced := match fault with
        | some fault => announce fault
        | none => ""
      let statistics := if request.stats then statistics times state else ""
      { code := if fault.isSome then 1 else 0, stdout := sink.bytes.toList
        stderr := s!"{log}{announced}{statistics}" }

/-- The end of a session, if its run has ended. -/
def finish (request : Request) (times : Times) :
    Attempt RunError Interpreter Ending → Except Crash (Option Exit)
  | .done .unfinished _ => .ok none
  | .done .halted interpreter => .ok (some (conclude request times interpreter.state none))
  | .refused (.failure (.fault fault)) interpreter =>
      .ok (some (conclude request times interpreter.state (some fault)))
  | .refused (.failure (.output error)) interpreter =>
      let log := shownLog request.verbosity interpreter.state.log.toList
      .ok (some {
        code := 1, stdout := interpreter.state.output.bytes.toList
        stderr := s!"{log}Error while writing output: {error.reason}\n" })
  | .refused error _ => .error (.run error)

end Session

/-- Serve a command line. There is no exit if the program does not end within `fuel` steps. -/
def run (host : Host) (files : FileSystem) (words : List String) (stdin : Stream)
    (stdout : Sink) (times : Times) (fuel : Nat) : Except Crash (Option Exit) :=
  match Request.parse words with
  | .error .help => .ok (some { code := 0, stdout := help.toUTF8.toList, stderr := "" })
  | .error (.usage error) =>
      .ok (some { code := 2, stdout := [], stderr := refusal error.message })
  | .ok request =>
      match Session.prepare host files request stdin stdout with
      | .error (events, obstacle) =>
          match Session.giveUp request.verbosity events obstacle with
          | .ok ending => .ok (some ending)
          | .error crash => .error crash
      | .ok session => Session.finish request times (session.interpreter.run fuel)

end TapeMachine.CommandLine
