/-
# Encodings

An encoding turns a text into bytes, or refuses it with the place of the first code points that
it cannot hold. A run of neighbouring offenders is reported as one, except in UTF-16 and UTF-32,
which report their first offender alone.

UTF-16 and UTF-32 write their units in one of two byte orders. Where no order is named, the low
byte comes first, and a mark in front of the text says so.
-/

import TapeMachine.Text.Utf8
import TapeMachine.Text.Quoted

namespace TapeMachine

/-- Which byte of a unit comes first. -/
inductive ByteOrder where
  | lowFirst
  | highFirst
  deriving DecidableEq

inductive Encoding where
  | utf8
  /-- UTF-8 behind a mark. -/
  | markedUtf8
  | ascii
  | latin1
  | utf16 (order : Option ByteOrder)
  | utf32 (order : Option ByteOrder)
  | unknown (name : String)
  deriving DecidableEq

/-- The code points at `first` to `last` of a text have no place in an encoding; `offender` is
the first of them. -/
structure Unencodable where
  encoding : String
  offender : CodePoint
  first : Nat
  last : Nat
  reason : String
  deriving DecidableEq

inductive EncodingError where
  | unknown (name : String)
  /-- The name of the encoding holds a NUL. -/
  | embeddedNul
  | unencodable (report : Unencodable)
  deriving DecidableEq

namespace Unencodable

/-- The offending code points and where they stand. -/
def place (report : Unencodable) : String :=
  if report.first = report.last then
    let offender := String.ofList (Quoted.byNumber report.offender.value)
    s!"character '{offender}' in position {report.first}"
  else
    s!"characters in position {report.first}-{report.last}"

def message (report : Unencodable) : String :=
  s!"'{report.encoding}' codec can't encode {report.place}: {report.reason}"

end Unencodable

namespace EncodingError

def message : EncodingError → String
  | unknown name => s!"unknown encoding: {name}"
  | embeddedNul => "embedded null character"
  | unencodable report => report.message

end EncodingError

namespace Encoding

/-- How error messages call an encoding. -/
def name : Encoding → String
  | utf8 | markedUtf8 => "utf-8"
  | ascii => "ascii"
  | latin1 => "latin-1"
  | utf16 none => "utf-16"
  | utf16 (some .lowFirst) => "utf-16-le"
  | utf16 (some .highFirst) => "utf-16-be"
  | utf32 none => "utf-32"
  | utf32 (some .lowFirst) => "utf-32-le"
  | utf32 (some .highFirst) => "utf-32-be"
  | unknown name => name

/-- Whether a code point has no place in an encoding. -/
def refuses (encoding : Encoding) (point : CodePoint) : Bool :=
  match encoding with
  | utf8 | markedUtf8 | utf16 _ | utf32 _ => point.isSurrogate
  | ascii => 0x80 ≤ point.value
  | latin1 => 0x100 ≤ point.value
  | unknown _ => true

/-- Why an encoding refuses what it refuses. -/
def reason : Encoding → String
  | utf8 | markedUtf8 | utf16 _ | utf32 _ => "surrogates not allowed"
  | ascii => "ordinal not in range(128)"
  | latin1 => "ordinal not in range(256)"
  | unknown _ => ""

/-- Whether neighbouring offenders are reported as one run. -/
def reportsRuns : Encoding → Bool
  | utf16 _ | utf32 _ => false
  | _ => true

/-- The `count` lowest bytes of a number, the lowest first. -/
def lowBytes : Nat → Nat → List UInt8
  | 0, _ => []
  | count + 1, value => UInt8.ofNat (value % 256) :: lowBytes count (value / 256)

/-- A unit of `count` bytes. -/
def unit (order : Option ByteOrder) (count value : Nat) : List UInt8 :=
  match order with
  | some .highFirst => (lowBytes count value).reverse
  | _ => lowBytes count value

/-- The bytes of a code point that the encoding does not refuse. -/
def bytes (encoding : Encoding) (point : CodePoint) : List UInt8 :=
  match encoding with
  | utf8 | markedUtf8 => Utf8.encode point
  | ascii | latin1 => [UInt8.ofNat point.value]
  | utf16 order =>
      if point.value < 0x10000 then unit order 2 point.value
      else
        let offset := point.value - 0x10000
        unit order 2 (0xD800 + offset / 1024) ++ unit order 2 (0xDC00 + offset % 1024)
  | utf32 order => unit order 4 point.value
  | unknown _ => []

/-- What stands in front of every text. -/
def mark : Encoding → List UInt8
  | markedUtf8 => [0xEF, 0xBB, 0xBF]
  | utf16 none => unit none 2 0xFEFF
  | utf32 none => unit none 4 0xFEFF
  | _ => []

/-- The first offending run of a text, if there is one. -/
def offence? (encoding : Encoding) (text : Text) : Option Unencodable :=
  match text.dropWhile (!encoding.refuses ·) with
  | [] => none
  | offender :: rest =>
      let first := (text.takeWhile (!encoding.refuses ·)).length
      let more := if encoding.reportsRuns then (rest.takeWhile encoding.refuses).length else 0
      some ⟨encoding.name, offender, first, first + more, encoding.reason⟩

/-- A name that is no encoding is refused for every text, the empty one included. -/
def encode (encoding : Encoding) (text : Text) : Except EncodingError (List UInt8) :=
  match encoding with
  | unknown name =>
      .error (if name.toList.contains '\x00' then .embeddedNul else .unknown name)
  | _ =>
      match encoding.offence? text with
      | some report => .error (.unencodable report)
      | none => .ok (encoding.mark ++ text.flatMap encoding.bytes)

end Encoding

end TapeMachine
