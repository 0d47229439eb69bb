/-
# Surveys

The brackets of any program, balanced or not. An opener waits on a stack, and a closer takes the
one that came last, as when a jump table is made. But a survey has nothing to refuse: a closer that
finds the stack empty is loose, and so is every opener that is still waiting at the end.
-/

import TapeMachine.Program.Grammar

namespace TapeMachine.Brackets

structure Survey where
  /-- The two ends of every loop. -/
  loops : List (Nat × Nat)
  /-- The brackets that belong to no loop. -/
  loose : List Nat
  deriving DecidableEq

namespace Survey

/-- Add loops that were found before. -/
def withLoops (loops : List (Nat × Nat)) (survey : Survey) : Survey :=
  { survey with loops := loops ++ survey.loops }

/-- Add a loose bracket that was found before. -/
def withLoose (position : Nat) (survey : Survey) : Survey :=
  { survey with loose := position :: survey.loose }

/-- Give every bracket another position. -/
def map (place : Nat → Nat) (survey : Survey) : Survey where
  loops := survey.loops.map (Prod.map place place)
  loose := survey.loose.map place

end Survey

/-- Survey what is left of a program, from `position` on, while openers are waiting. -/
def surveyFrom : List UInt8 → Nat → List Nat → Survey
  | [], _, waiting => ⟨[], waiting⟩
  | byte :: rest, position, waiting =>
      match Instruction.ofByte? byte with
      | some .loopStart => surveyFrom rest (position + 1) (position :: waiting)
      | some .loopEnd =>
          match waiting with
          | [] => (surveyFrom rest (position + 1) []).withLoose position
          | opener :: waiting =>
              (surveyFrom rest (position + 1) waiting).withLoops [(opener, position)]
      | _ => surveyFrom rest (position + 1) waiting

def survey (code : List UInt8) : Survey := surveyFrom code 0 []

/-- The position that a byte has once the one at `removed` is gone. -/
def renumber (removed position : Nat) : Nat :=
  if position < removed then position else position - 1

end TapeMachine.Brackets
