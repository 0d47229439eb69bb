/-
# Lines and columns

A byte string has as many lines as line feeds, and one more. The place of a byte is given by its
line and by its column in characters, both counted from one. Only the bytes of the line before
the place are decoded, so the column of a byte that stands inside a character counts the piece
before it as a character of its own.
-/

import TapeMachine.Index
import TapeMachine.Text.Utf8

namespace TapeMachine

structure Position where
  line : Nat
  column : Nat
  deriving DecidableEq

namespace Position

/-- The byte that ends a line. -/
def lineFeed : UInt8 := 0x0A

/-- What stands behind the last line feed. -/
def lastLine (bytes : List UInt8) : List UInt8 :=
  (bytes.reverse.takeWhile (· ≠ lineFeed)).reverse

/-- The place behind a byte string. -/
def after (before : List UInt8) : Position where
  line := before.count lineFeed + 1
  column := (Utf8.decode (lastLine before)).length + 1

/-- The place of a signed position of a source. It is clamped to the source, as a cut is. -/
def of (source : List UInt8) (position : Int) : Position :=
  after (source.take (Index.cut source.length position))

end Position

/-- The lines of a source, decoded. -/
def sourceLines (source : List UInt8) : List (List Char) :=
  (Utf8.decode source).splitOn '\n'

end TapeMachine
