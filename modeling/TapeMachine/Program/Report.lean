/-
# Reports on unmatched brackets

A report says where a bracket stands, shows the lines around it, and gives a hint at what would
mend the program. A report can be made for any byte of a source; one that is no bracket is called
an opening bracket and gets no hint.
-/

import TapeMachine.Source.Excerpt
import TapeMachine.Source.Position

namespace TapeMachine

structure BracketReport where
  position : Int
  bracket : Char
  line : Nat
  column : Nat
  context : String
  deriving DecidableEq

namespace BracketReport

/-- How many lines a report shows on either side. -/
def contextLines : Int := 2

/-- The report on the byte `byte`, which stands at `position` in a source. -/
def make (source : List UInt8) (position : Int) (byte : UInt8) : BracketReport :=
  let place := Position.of source position
  { position
    bracket := Char.ofNat byte.toNat
    line := place.line
    column := place.column
    context := Excerpt.write (sourceLines source) place.line place.column contextLines }

/-- The report on a signed position of a source. -/
def ofPosition (source : List UInt8) (position : Int) : Except OutOfBounds BracketReport :=
  match Index.resolve source.length position with
  | some index => .ok (make source position (source.get index))
  | none => .error ⟨position, source.length⟩

def hint? (bracket : Char) : Option String :=
  if bracket = ']' then
    some "Remove the stray \"]\" or add the \"[\" that should open this loop."
  else if bracket = '[' then
    some "Add the missing \"]\" that closes this loop."
  else
    none

/-- What kind of bracket a report speaks of. -/
def kind (report : BracketReport) : String :=
  if report.bracket = ']' then "closing" else "opening"

def message (report : BracketReport) : String :=
  let headline :=
    s!"UnbalancedBrackets: unmatched {report.kind} bracket '{report.bracket}' "
      ++ s!"at position {report.position} (line {report.line}, column {report.column})"
  let hint := match hint? report.bracket with
    | some hint => s!"\nHint: {hint}"
    | none => ""
  s!"{headline}\n{report.context}{hint}"

end BracketReport

end TapeMachine
