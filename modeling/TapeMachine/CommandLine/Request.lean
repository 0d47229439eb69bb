/-
# Requests

What a command line asks for. Its words are taken from left to right: the first plain word is the
program, a flag takes its value at once, and what has no place is collected and refused at the
end. The first error wins, and `--help` ends the reading of the command line where it stands.
-/

import TapeMachine.CommandLine.Word
import TapeMachine.Config.Settings
import TapeMachine.Text.Numeral

namespace TapeMachine.CommandLine

/-- What a command line asks for. -/
structure Request where
  program : String
  settings : Settings
  /-- The path of the input file, or nothing for the standard input. -/
  input : Setting
  stats : Bool
  verbosity : Nat

/-- The value of a flag, as the kind of the flag demands. -/
inductive Value where
  | number (value : Int)
  | text (value : String)
  deriving DecidableEq

namespace Value

def setting : Value → Setting
  | number value => .integer value
  | text value => .text value

/-- The form in which a value is written down. A number that has been read can always be written. -/
def write : Value → String
  | number value => toString value
  | text value => Quoted.quote value

end Value

inductive UsageError where
  | ambiguous (ambiguity : Ambiguity)
  | missingValue (flag : Flag)
  /-- A value behind a flag that takes none. -/
  | ignoredValue (flag : Flag) (value : String)
  | invalidInteger (flag : Flag) (value : String)
  | invalidChoice (flag : Flag) (value : Value) (choices : List Value)
  | missingProgram
  | unrecognized (words : List String)

namespace UsageError

def message : UsageError → String
  | ambiguous ambiguity =>
      s!"ambiguous option: {ambiguity.word} could match "
        ++ ", ".intercalate ambiguity.candidates
  | missingValue flag => s!"argument {flag.title}: expected one argument"
  | ignoredValue flag value =>
      s!"argument {flag.title}: ignored explicit argument {Quoted.quote value}"
  | invalidInteger flag value =>
      s!"argument {flag.title}: invalid int value: {Quoted.quote value}"
  | invalidChoice flag value choices =>
      let list := ", ".intercalate (choices.map Value.write)
      s!"argument {flag.title}: invalid choice: {value.write} (choose from {list})"
  | missingProgram => "the following arguments are required: program"
  | unrecognized words => "unrecognized arguments: " ++ " ".intercalate words

end UsageError

/-- Why a command line gives no request. -/
inductive Stop where
  | help
  | usage (error : UsageError)

/-- What has been read of a command line. -/
structure Draft where
  program : Option String := none
  settings : Settings := {}
  input : Setting := .nothing
  stats : Bool := false
  verbosity : Nat := 0
  /-- The words that have no place, the last first. -/
  extras : List String := []

namespace Draft

/-- The values that a flag admits, if it does not admit all of its kind. -/
def choices : Flag → Option (List Value)
  | .cellWidth => some [.number 8, .number 16, .number 32]
  | .overflow => some [.text "wrap", .text "trap"]
  | .underflow => some [.text "trap", .text "wrap"]
  | .atEnd => some [.text "zero", .text "keep", .text "fault"]
  | _ => none

/-- The value of a flag, read as its kind demands. -/
def readValue (flag : Flag) (value : String) : Except UsageError Value :=
  match flag with
  | .tapeSize | .cellWidth =>
      match Numeral.integer? value with
      | some number => .ok (.number number)
      | none => .error (.invalidInteger flag value)
  | _ => .ok (.text value)

def checkChoice (flag : Flag) (value : Value) : Except UsageError Value :=
  match choices flag with
  | none => .ok value
  | some choices =>
      if value ∈ choices then .ok value else .error (.invalidChoice flag value choices)

/-- Give a flag its value. -/
def assign (draft : Draft) (flag : Flag) (value : Setting) : Draft :=
  match flag with
  | .tapeSize => { draft with settings.tapeSize := value }
  | .cellWidth => { draft with settings.cellWidth := value }
  | .overflow => { draft with settings.overflow := value }
  | .underflow => { draft with settings.underflow := value }
  | .atEnd => { draft with settings.atEnd := value }
  | .input => { draft with input := value }
  | .help | .stats | .verbose => draft

/-- Read and give a value to a flag. -/
def takeValue (draft : Draft) (flag : Flag) (value : String) : Except Stop Draft :=
  match readValue flag value with
  | .error error => .error (.usage error)
  | .ok value =>
      match checkChoice flag value with
      | .error error => .error (.usage error)
      | .ok value => .ok (draft.assign flag value.setting)

/-- A value in the same word as its flag. The separator is no value: attached to a flag it leaves
an empty list behind, which is neither read nor checked. -/
def takeAttached (draft : Draft) (flag : Flag) (value : String) : Except Stop Draft :=
  if value = "--" then .ok (draft.assign flag (.list [])) else draft.takeValue flag value

/-- The effect of a flag without a value. -/
def raise (draft : Draft) (flag : Flag) : Except Stop Draft :=
  match flag with
  | .help => .error .help
  | .stats => .ok { draft with stats := true }
  | .verbose => .ok { draft with verbosity := draft.verbosity + 1 }
  | _ => .ok draft

/-- The flags of a word of one-letter flags, without its first, or the error of the flag before
the first letter that is none. -/
def chain (flag : Flag) : List Char → Except UsageError (List Flag)
  | [] => .ok []
  | letter :: rest =>
      match Flag.ofSpelling? (String.ofList ['-', letter]) with
      | none => .error (.ignoredValue flag (String.ofList (letter :: rest)))
      | some next =>
          match chain next rest with
          | .error error => .error error
          | .ok flags => .ok (next :: flags)

/-- A flag without a value, with what is attached to it. One-letter flags may stand together in
one word; nothing else may be attached. -/
def raiseAttached (draft : Draft) (flag : Flag) (short : Bool) (attached : String) :
    Except Stop Draft :=
  if short && attached ≠ "" then
    match chain flag attached.toList with
    | .error error => .error (.usage error)
    | .ok flags => (flag :: flags).foldlM raise draft
  else
    .error (.usage (.ignoredValue flag attached))

def refuse (draft : Draft) (word : String) : Draft :=
  { draft with extras := word :: draft.extras }

/-- Read the words of a command line from left to right. A separator is dropped where it stands
next to the word that becomes the program. -/
def read (draft : Draft) : List Word → Except Stop Draft
  | [] => .ok draft
  | .plain text :: .separator :: words =>
      match draft.program with
      | none => read { draft with program := some text } words
      | some _ => read ((draft.refuse text).refuse "--") words
  | .separator :: .plain text :: words =>
      match draft.program with
      | none => read { draft with program := some text } words
      | some _ => read ((draft.refuse "--").refuse text) words
  | .plain text :: words =>
      match draft.program with
      | none => read { draft with program := some text } words
      | some _ => read (draft.refuse text) words
  | .separator :: words => read (draft.refuse "--") words
  | .unknown text :: words => read (draft.refuse text) words
  | .flag flag short (some attached) :: words =>
      if flag.takesValue then
        match draft.takeAttached flag attached with
        | .error stop => .error stop
        | .ok draft => read draft words
      else
        match draft.raiseAttached flag short attached with
        | .error stop => .error stop
        | .ok draft => read draft words
  | .flag flag _ none :: words =>
      if flag.takesValue then
        match words with
        | .plain value :: words =>
            match draft.takeValue flag value with
            | .error stop => .error stop
            | .ok draft => read draft words
        | _ => .error (.usage (.missingValue flag))
      else
        match draft.raise flag with
        | .error stop => .error stop
        | .ok draft => read draft words

/-- The request of a command line that has been read to its end. -/
def finish (draft : Draft) : Except Stop Request :=
  match draft.program with
  | none => .error (.usage .missingProgram)
  | some program =>
      if draft.extras.isEmpty then
        .ok {
          program
          settings := draft.settings
          input := draft.input
          stats := draft.stats
          verbosity := draft.verbosity }
      else
        .error (.usage (.unrecognized draft.extras.reverse))

end Draft

/-- The request of a command line. -/
def Request.parse (words : List String) : Except Stop Request :=
  match Word.classifyAll words with
  | .error ambiguity => .error (.usage (.ambiguous ambiguity))
  | .ok words =>
      match Draft.read {} words with
      | .error stop => .error stop
      | .ok draft => draft.finish

end TapeMachine.CommandLine
