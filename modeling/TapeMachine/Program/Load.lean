/-
# Loading

A program is loaded from bytes, or from a text, which is encoded first. Loading fails if the text
cannot be encoded or if a bracket has no partner.
-/

import TapeMachine.Program
import TapeMachine.Program.Brackets
import TapeMachine.Program.Report
import TapeMachine.Text.Encoding

namespace TapeMachine

inductive Source where
  | text (points : Text)
  | bytes (code : List UInt8)

inductive LoadError where
  | encoding (error : EncodingError)
  | brackets (report : BracketReport)
  deriving DecidableEq

namespace LoadError

def message : LoadError → String
  | encoding error => error.message
  | brackets report => report.message

end LoadError

/-- The code of a source. Bytes are taken as they are, whatever the encoding. -/
def Source.encode (source : Source) (encoding : Encoding) : Except EncodingError (List UInt8) :=
  match source with
  | .text points => encoding.encode points
  | .bytes code => .ok code

/-- The jump table of a byte string, or a report on the bracket that has no partner. -/
def Brackets.table (code : List UInt8) : Except BracketReport (Array (Option Int)) :=
  match Brackets.pair code with
  | .error unmatched =>
      .error (BracketReport.make code unmatched.position unmatched.bracket.byte)
  | .ok partners => .ok (partners.map (·.map Int.ofNat))

/-- Why a source has no jump table. -/
inductive TableError where
  /-- A text has to be encoded first. -/
  | text
  | brackets (report : BracketReport)
  deriving DecidableEq

namespace TableError

def message : TableError → String
  | text => "build_jump_table expects bytes, not str"
  | brackets report => report.message

end TableError

/-- The jump table of a source, which has to be bytes. -/
def Source.table (source : Source) : Except TableError (Array (Option Int)) :=
  match source with
  | .text _ => .error .text
  | .bytes code =>
      match Brackets.table code with
      | .error report => .error (.brackets report)
      | .ok jumps => .ok jumps

namespace Program

def ofBytes (code : List UInt8) : Except BracketReport Program :=
  match Brackets.table code with
  | .error report => .error report
  | .ok jumps => .ok ⟨code.toArray, jumps⟩

def load (source : Source) (encoding : Encoding) : Except LoadError Program :=
  match source.encode encoding with
  | .error error => .error (.encoding error)
  | .ok code =>
      match ofBytes code with
      | .error report => .error (.brackets report)
      | .ok program => .ok program

end Program

end TapeMachine
