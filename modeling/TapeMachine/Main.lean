/-
# The command

The command line as a program of its own. The session decides everything; here its files are read,
its input is fetched when an instruction asks for it, and its output is written as it arises.
-/

import TapeMachine.CommandLine.Session

namespace TapeMachine.CommandLine

/-- The memory and the nesting that the command is given: 64 gibibytes and a thousand lists. -/
def host : Host where
  memory := 0x1000000000
  nesting := 1000
  cell_le_memory := by decide
  memory_le_greatest := by decide

/-- The number that an error carries. -/
def rawNumber : IO.Error → UInt32
  | .alreadyExists _ code _ | .otherError code _ | .resourceBusy code _
  | .resourceVanished code _ | .unsupportedOperation code _ | .hardwareFault code _
  | .unsatisfiedConstraints code _ | .illegalOperation code _ | .protocolError code _
  | .timeExpired code _ | .interrupted _ code _ | .noFileOrDirectory _ code _
  | .invalidArgument _ code _ | .permissionDenied _ code _ | .resourceExhausted _ code _
  | .inappropriateType _ code _ | .noSuchThing _ code _ => code
  | .unexpectedEof | .userError _ => 5

/-- The number of an error of the system. Some calls report it with its sign changed. -/
def errorNumber (error : IO.Error) : UInt32 :=
  let number := rawNumber error
  if number < 0x80000000 then number else 0 - number

def readContents (path : String) : IO (Except AccessError (List UInt8)) := do
  if path.toList.contains '\x00' then return .error .embeddedNul
  try
    return .ok (← IO.FS.readBinFile path).toList
  catch error =>
    return .error (.system ⟨(errorNumber error).toNat⟩)

/-- The files that a request names. -/
def readFiles (request : Request) : IO FileSystem := do
  let programPath := Path.normalise request.program
  let program ← readContents programPath
  match request.input with
  | .text inputPath =>
      let input ← readContents inputPath
      return fun path => if path = inputPath then input else program
  | _ => return fun _ => program

/-- Time in milliseconds, with two places. -/
def milliseconds (nanoseconds : Nat) : String :=
  let hundredths := (nanoseconds + 5000) / 10000
  let places := String.ofList ((Nat.toDigits 10 (hundredths % 100)).leftpad 2 '0')
  s!"{hundredths / 100}.{places}"

/-- Whether the next instruction asks for input that is not there yet. -/
def wantsInput (interpreter : Interpreter) : Bool :=
  match interpreter.machine.currentOp interpreter.state with
  | .ok (some byte) =>
      Instruction.ofByte? byte = some .input && interpreter.state.input.any (·.chunks.isEmpty)
  | _ => false

/-- Fetch a byte of standard input if the next instruction asks for it. -/
def fetchInput (interpreter : Interpreter) : IO Interpreter := do
  if wantsInput interpreter then
    let bytes ← (← IO.getStdin).read 1
    return { interpreter with state.input := .ofBytes bytes.toList }
  else
    return interpreter

/-- Write the output behind the first `written` bytes. -/
def writeOutput (sink : Sink) (written : Nat) : IO Unit := do
  if written < sink.bytes.size then
    let stdout ← IO.getStdout
    stdout.write ⟨sink.bytes.extract written sink.bytes.size⟩
    stdout.flush

/-- Run an interpreter to the end of its run. -/
partial def runToEnd (ownInput : Bool)
    (take : Nat → Interpreter → Attempt RunError Interpreter Ending)
    (interpreter : Interpreter) : IO (Attempt RunError Interpreter Ending) := do
  let interpreter ← if ownInput then pure interpreter else fetchInput interpreter
  let written := interpreter.state.output.bytes.size
  let outcome := take 1 interpreter
  try
    writeOutput outcome.state.state.output written
  catch error =>
    let reason := SinkError.system (errorNumber error).toNat
    return .refused (.failure (.output reason)) outcome.state
  match outcome with
  | .done .unfinished interpreter => runToEnd ownInput Interpreter.resume interpreter
  | ended => return ended

def report (ending : Exit) : IO UInt32 := do
  (← IO.getStderr).putStr ending.stderr
  return UInt32.ofNat ending.code

/-- Serve a request. -/
def serve (request : Request) : IO UInt32 := do
  let files ← readFiles request
  let started ← IO.monoNanosNow
  match Session.prepare host files request .empty (.empty none) with
  | .error (events, obstacle) =>
      match Session.giveUp request.verbosity events obstacle with
      | .ok ending => report ending
      | .error crash => throw (IO.userError crash.message)
  | .ok session =>
      let loaded ← IO.monoNanosNow
      let ownInput := match request.input with
        | .text _ => true
        | _ => false
      let outcome ← runToEnd ownInput Interpreter.run session.interpreter
      let ended ← IO.monoNanosNow
      let times : Times := ⟨milliseconds (loaded - started), milliseconds (ended - loaded)⟩
      match Session.finish request times outcome with
      | .ok (some ending) => report ending
      | .ok none => return 1
      | .error crash => throw (IO.userError crash.message)

end TapeMachine.CommandLine

open TapeMachine.CommandLine in
def main (words : List String) : IO UInt32 := do
  match Request.parse words with
  | .error .help =>
      IO.print help
      return 0
  | .error (.usage error) =>
      IO.eprint (refusal error.message)
      return 2
  | .ok request => serve request
