/-
# Excerpts

An excerpt shows a line of a text with its neighbours. Every line stands behind its number, the
line itself behind a mark, and below it a caret points at a column. A column of any number can be
asked for, but a caret can only be drawn at one that a word holds and for which there is memory.
-/

import TapeMachine.Host

namespace TapeMachine

/-- Why an excerpt is not drawn. -/
inductive ExcerptError where
  | columnMisfit
  | outOfMemory
  deriving DecidableEq

namespace ExcerptError

def message : ExcerptError → String
  | columnMisfit => Word.misfit
  | outOfMemory => ""

end ExcerptError

namespace Excerpt

/-- A line number, right-aligned in four columns. -/
def lineNumber (number : Nat) : List Char :=
  (Nat.toDigits 10 number).leftpad 4 ' '

/-- What stands between a line number and the line. -/
def rule : List Char := [' ', '|', ' ']

def lineRow (marked : Bool) (number : Nat) (line : List Char) : List Char :=
  (if marked then '>' else ' ') :: ' ' :: lineNumber number ++ rule ++ line

def caretRow (column : Int) : List Char :=
  List.replicate 6 ' ' ++ rule ++ List.replicate (column - 1).toNat ' ' ++ ['^']

/-- The rows of an excerpt: the lines at most `context` away from the marked one. -/
def rows (lines : List (List Char)) (line column context : Int) : List (List Char) :=
  let marked := max 1 line
  let first := (max 1 (marked - context)).toNat
  let last := (min (lines.length : Int) (marked + context)).toNat
  let shown := (lines.drop (first - 1)).take (last + 1 - first)
  (shown.zipIdx first).flatMap fun (text, number) =>
    if number = marked then [lineRow true number text, caretRow column]
    else [lineRow false number text]

def write (lines : List (List Char)) (line column context : Int) : String :=
  String.ofList (List.intercalate ['\n'] (rows lines line column context))

/-- Whether the marked line is among the ones that an excerpt shows. -/
def showsMark (lines : List (List Char)) (line context : Int) : Bool :=
  0 ≤ context && max 1 line ≤ lines.length

/-- The text of an excerpt, if its caret can be drawn. -/
def draw (host : Host) (lines : List (List Char)) (line column context : Int) :
    Except ExcerptError String :=
  if showsMark lines line context then
    if !Word.fits (column - 1) then .error .columnMisfit
    else if host.memory < column - 1 then .error .outOfMemory
    else .ok (write lines line column context)
  else
    .ok (write lines line column context)

end Excerpt

end TapeMachine
