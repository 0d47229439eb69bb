import TapeMachine.Attempt
import TapeMachine.Channel.Input
import TapeMachine.Channel.Sink
import TapeMachine.Channel.Stream
import TapeMachine.CommandLine.Flag
import TapeMachine.CommandLine.Request
import TapeMachine.CommandLine.Session
import TapeMachine.CommandLine.Usage
import TapeMachine.CommandLine.Word
import TapeMachine.Config
import TapeMachine.Config.Relaxation
import TapeMachine.Config.Settings
import TapeMachine.Decimal.Binary64
import TapeMachine.Decimal.ByteSize
import TapeMachine.Decimal.Notation
import TapeMachine.Decimal.Rounding
import TapeMachine.Decimal.Shortest
import TapeMachine.Event
import TapeMachine.Execution
import TapeMachine.Fault
import TapeMachine.File.Access
import TapeMachine.File.Path
import TapeMachine.File.Program
import TapeMachine.File.Tree
import TapeMachine.Host
import TapeMachine.Index
import TapeMachine.Interpreter
import TapeMachine.Interpreter.Action
import TapeMachine.Machine
import TapeMachine.Machine.Run
import TapeMachine.Machine.Step
import TapeMachine.Main
import TapeMachine.Program
import TapeMachine.Program.Brackets
import TapeMachine.Program.Depth
import TapeMachine.Program.Grammar
import TapeMachine.Program.Instruction
import TapeMachine.Program.Load
import TapeMachine.Program.Report
import TapeMachine.Program.Tree
import TapeMachine.Proofs.Program.Balance
import TapeMachine.Setting
import TapeMachine.Source.Excerpt
import TapeMachine.Source.Excerpt.Reading
import TapeMachine.Source.Position
import TapeMachine.Structured.Execution
import TapeMachine.Structured.Store
import TapeMachine.SystemError
import TapeMachine.Tape
import TapeMachine.Tape.Command
import TapeMachine.Tape.Dump
import TapeMachine.Tape.Dump.Reading
import TapeMachine.Tape.Unbounded
import TapeMachine.Text.Blank
import TapeMachine.Text.CodePoint
import TapeMachine.Text.Digit
import TapeMachine.Text.Encoding
import TapeMachine.Text.EncodingName
import TapeMachine.Text.Numeral
import TapeMachine.Text.Printable
import TapeMachine.Text.Quoted
import TapeMachine.Text.Utf8
import TapeMachine.Word
import TapeMachine.Proofs.Setting
import TapeMachine.Proofs.Text.Numeral
import TapeMachine.Proofs.Program.DepthScan
import TapeMachine.Proofs.Program.Waiting
import TapeMachine.Proofs.Program.JumpTable
import TapeMachine.Proofs.Machine.Reach
import TapeMachine.Proofs.Tape.Sound
import TapeMachine.Proofs.Interpreter.Run
import TapeMachine.Proofs.Machine.Range
import TapeMachine.Proofs.Interpreter.Safety
import TapeMachine.Proofs.Program.Tree
import TapeMachine.Proofs.Structured.Effect
import TapeMachine.Proofs.Structured.Simulation
import TapeMachine.Proofs.Structured.Agreement
import TapeMachine.Proofs.Machine.Channels
import TapeMachine.Proofs.Machine.Refusal
import TapeMachine.Proofs.Execution.Report
import TapeMachine.Proofs.Config.Relaxation
import TapeMachine.Proofs.Config.Resources
import TapeMachine.Proofs.Machine.Comments
import TapeMachine.Proofs.Interpreter.Comments
import TapeMachine.Proofs.Machine.Fetches
import TapeMachine.Proofs.Interpreter.Channels
import TapeMachine.Proofs.Machine.Exchange
import TapeMachine.Proofs.Machine.Input
import TapeMachine.Proofs.Execution.Input
import TapeMachine.Proofs.Machine.FailingSink
import TapeMachine.Proofs.Interpreter.FailingSink
import TapeMachine.Proofs.CommandLine.Preparation
import TapeMachine.Proofs.CommandLine.Session
import TapeMachine.Proofs.Program.Characters
import TapeMachine.Proofs.Interpreter.Jumps
import TapeMachine.Proofs.Machine.Tick
import TapeMachine.Proofs.Interpreter.SingleRun
import TapeMachine.Proofs.Machine.Pool
import TapeMachine.Proofs.Interpreter.Footprint
import TapeMachine.Proofs.Program.Report
import TapeMachine.Proofs.Program.ReportExcerpt
import TapeMachine.Proofs.Source.Excerpt
import TapeMachine.Proofs.Source.Excerpt.Reading
import TapeMachine.Proofs.Source.Lines
import TapeMachine.Program.Drift
import TapeMachine.Program.Survey
import TapeMachine.Proofs.Tape.Wrapping
import TapeMachine.Proofs.Tape.Drift
import TapeMachine.Proofs.Text.Column
import TapeMachine.Proofs.Tape.Undoing
import TapeMachine.Proofs.Tape.Dump
import TapeMachine.Proofs.Machine.Copying
import TapeMachine.Proofs.Execution.Copying
import TapeMachine.Proofs.Execution.File
import TapeMachine.Proofs.Machine.CountedLoop
import TapeMachine.Proofs.Program.Survey
import TapeMachine.Proofs.Program.Mending
import TapeMachine.Proofs.Program.Pairs
