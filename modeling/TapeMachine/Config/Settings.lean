/-
# From settings to a configuration

A configuration is asked for by five settings of any kind. Acceptance looks at them in a fixed
order and refuses the first that is invalid with an error that shows it; if it cannot be written
down, that is the error. Some settings are accepted and still give no configuration: the truth value
`true` passes for a tape of one cell, and a double that equals a cell width passes for that width,
but neither can be built with; and a tape of any length passes, whether or not there is room for its
cells. So a configuration is made in two steps, `Settings.accept` and `Accepted.config`, each with
errors of its own.
-/

import TapeMachine.Config
import TapeMachine.Decimal.ByteSize
import TapeMachine.Host
import TapeMachine.Setting

namespace TapeMachine

structure Settings where
  tapeSize : Setting := .integer 30000
  cellWidth : Setting := .integer 8
  overflow : Setting := .text "wrap"
  underflow : Setting := .text "trap"
  atEnd : Setting := .text "zero"

inductive SettingsError where
  | unknownField (name : String)
  | badTapeSize (shown : String)
  | badCellWidth (shown : String)
  /-- A list is not even compared with the widths. -/
  | cellWidthIsList
  | badOverflow (shown : String)
  | badUnderflow (shown : String)
  | badAtEnd (shown : String)
  /-- A setting is invalid and cannot be shown. -/
  | unwritable (error : WriteError)
  deriving DecidableEq

namespace SettingsError

def message : SettingsError → String
  | unknownField name => s!"VMConfig.__init__() got an unexpected keyword argument '{name}'"
  | badTapeSize shown => s!"tape_size must be a positive integer, got {shown}"
  | badCellWidth shown => s!"cell_width must be one of 8, 16, 32, got {shown}"
  | cellWidthIsList => "unhashable type: 'list'"
  | badOverflow shown => s!"overflow policy must be 'wrap' or 'trap', got {shown}"
  | badUnderflow shown => s!"underflow policy must be 'trap' or 'wrap', got {shown}"
  | badAtEnd shown => s!"eof policy must be 'zero', 'keep' or 'fault', got {shown}"
  | unwritable error => error.message

end SettingsError

/-- A tape size that was accepted: a positive number, or `true` in its place. -/
inductive AcceptedSize where
  | cells (count : Nat) (pos : 0 < count)
  | truth

/-- Settings that were accepted. -/
structure Accepted where
  tapeSize : AcceptedSize
  width : Width
  /-- The width was given as a double. -/
  widthIsDouble : Bool
  overflow : Boundary
  underflow : Boundary
  atEnd : EndOfInput

/-- Why accepted settings give no configuration. -/
inductive BuildError where
  | sizeIsTruth
  /-- The number of cells fits no word. -/
  | tooManyCells
  /-- The number of bytes fits no word. -/
  | tooManyBytes
  | outOfMemory (cells : Nat) (width : Width)
  | widthIsDouble
  deriving DecidableEq

namespace BuildError

def message : BuildError → String
  | sizeIsTruth => "expected a sequence of integers or a single integer, got 'True'"
  | tooManyCells => "Maximum allowed dimension exceeded"
  | tooManyBytes =>
      "array is too big; `arr.size * arr.dtype.itemsize` is larger than the maximum possible size."
  | outOfMemory cells width =>
      s!"Unable to allocate {ByteSize.write (cells * width.bytes)} for an array "
        ++ s!"with shape ({cells},) and data type uint{width.bits}"
  | widthIsDouble => "unsupported operand type(s) for <<: 'int' and 'float'"

end BuildError

namespace Settings

/-- Replace the setting of one field. -/
def set (settings : Settings) (field : String) (value : Setting) :
    Except SettingsError Settings :=
  match field with
  | "tape_size" => .ok { settings with tapeSize := value }
  | "cell_width" => .ok { settings with cellWidth := value }
  | "overflow" => .ok { settings with overflow := value }
  | "underflow" => .ok { settings with underflow := value }
  | "eof" => .ok { settings with atEnd := value }
  | _ => .error (.unknownField field)

/-- The settings that a list of fields asks for. A field that is not named keeps its default. -/
def ofFields (fields : List (String × Setting)) : Except SettingsError Settings :=
  fields.foldlM (fun settings (field, value) => settings.set field value) {}

/-- The error that refuses a setting. It shows the setting, unless that cannot be written. -/
def refusal (host : Host) (found : Setting) (error : String → SettingsError) : SettingsError :=
  match found.write host.nesting with
  | .ok shown => error shown
  | .error reason => .unwritable reason

def acceptSize (host : Host) (found : Setting) : Except SettingsError AcceptedSize :=
  match found with
  | .integer value =>
      if hpos : 0 < value then .ok (.cells value.toNat (by omega))
      else .error (refusal host found .badTapeSize)
  | .boolean true => .ok .truth
  | _ => .error (refusal host found .badTapeSize)

/-- The width that a setting equals, and whether it is a double. -/
def acceptWidth (host : Host) (found : Setting) : Except SettingsError (Width × Bool) :=
  match found with
  | .list _ => .error .cellWidthIsList
  | .integer value =>
      match Width.ofBits? value with
      | some width => .ok (width, false)
      | none => .error (refusal host found .badCellWidth)
  | .double value =>
      match [Width.eight, .sixteen, .thirtyTwo].find? (value.equalsNat ·.bits) with
      | some width => .ok (width, true)
      | none => .error (refusal host found .badCellWidth)
  | _ => .error (refusal host found .badCellWidth)

def boundary? : Setting → Option Boundary
  | .text name => Boundary.ofName? name
  | _ => none

def endOfInput? : Setting → Option EndOfInput
  | .text name => EndOfInput.ofName? name
  | _ => none

/-- Settings that name a configuration, or the first that does not. -/
def accept (host : Host) (settings : Settings) : Except SettingsError Accepted := do
  let tapeSize ← acceptSize host settings.tapeSize
  let (width, widthIsDouble) ← acceptWidth host settings.cellWidth
  let some overflow := boundary? settings.overflow
    | throw (refusal host settings.overflow .badOverflow)
  let some underflow := boundary? settings.underflow
    | throw (refusal host settings.underflow .badUnderflow)
  let some atEnd := endOfInput? settings.atEnd
    | throw (refusal host settings.atEnd .badAtEnd)
  return { tapeSize, width, widthIsDouble, overflow, underflow, atEnd }

end Settings

namespace Accepted

/-- The largest value of a cell. -/
def largestCell (accepted : Accepted) : Except BuildError Nat :=
  if accepted.widthIsDouble then .error .widthIsDouble else .ok accepted.width.largest

/-- Why there is no room for a tape, if there is none. -/
def obstacle? (host : Host) (cells : Nat) (width : Width) : Option BuildError :=
  if !Word.fits cells then some .tooManyCells
  else if !Word.fits (cells * width.bytes : Nat) then some .tooManyBytes
  else if host.memory < cells * width.bytes then some (.outOfMemory cells width)
  else none

/-- The configuration that accepted settings describe. -/
def config (host : Host) (accepted : Accepted) : Except BuildError Config :=
  match accepted.tapeSize with
  | .truth => .error .sizeIsTruth
  | .cells tapeSize tapeSize_pos =>
      match obstacle? host tapeSize accepted.width with
      | some error => .error error
      | none =>
          if accepted.widthIsDouble then .error .widthIsDouble
          else
            .ok {
              tapeSize, tapeSize_pos
              width := accepted.width
              overflow := accepted.overflow
              underflow := accepted.underflow
              atEnd := accepted.atEnd }

end Accepted

end TapeMachine
