/-
# UTF-8

`encode` writes one code point. `decode` reads any bytes at all: where they are not well formed,
each longest piece that a well formed sequence could still have begun with becomes one
replacement character, and a byte that can begin nothing becomes one of its own.

The decoder is a machine that reads a byte at a time and owes nothing after an ASCII byte, so
that a text is decoded line by line in the same way as it is decoded whole.
-/

import TapeMachine.Text.CodePoint

namespace TapeMachine.Utf8

/-- The bytes of a code point. A surrogate has none; whoever encodes a text refuses it first. -/
def encode (point : CodePoint) : List UInt8 :=
  let value := point.value
  let tail (shift : Nat) : UInt8 := UInt8.ofNat (0x80 + value / shift % 64)
  if value < 0x80 then [UInt8.ofNat value]
  else if value < 0x800 then [UInt8.ofNat (0xC0 + value / 64), tail 1]
  else if value < 0x10000 then [UInt8.ofNat (0xE0 + value / 4096), tail 64, tail 1]
  else [UInt8.ofNat (0xF0 + value / 262144), tail 4096, tail 64, tail 1]

/-- The character that stands for what cannot be decoded. -/
def replacement : Char := '\uFFFD'

/-- Where the decoder stands between two bytes. -/
inductive Pending where
  /-- Between two characters. -/
  | nothing
  /-- Inside a character: the next byte has to lie between `low` and `high`, `later` more bytes
  follow it, and `bits` is the value read so far. -/
  | inside (later : Nat) (low high : UInt8) (bits : Nat)
  deriving DecidableEq

/-- Read a byte between two characters. -/
def lead (byte : UInt8) : Pending × List Char :=
  if byte < 0x80 then (.nothing, [Char.ofNat byte.toNat])
  else if byte < 0xC2 then (.nothing, [replacement])
  else if byte < 0xE0 then (.inside 0 0x80 0xBF (byte.toNat - 0xC0), [])
  else if byte = 0xE0 then (.inside 1 0xA0 0xBF 0, [])
  else if byte = 0xED then (.inside 1 0x80 0x9F 0xD, [])
  else if byte < 0xF0 then (.inside 1 0x80 0xBF (byte.toNat - 0xE0), [])
  else if byte = 0xF0 then (.inside 2 0x90 0xBF 0, [])
  else if byte < 0xF4 then (.inside 2 0x80 0xBF (byte.toNat - 0xF0), [])
  else if byte = 0xF4 then (.inside 2 0x80 0x8F 4, [])
  else (.nothing, [replacement])

/-- Read one byte: where the decoder stands after it, and the characters that are finished. A
byte that does not continue the present character ends it as a replacement and is read again. -/
def step : Pending → UInt8 → Pending × List Char
  | .nothing, byte => lead byte
  | .inside later low high bits, byte =>
      if low ≤ byte ∧ byte ≤ high then
        let bits := bits * 64 + (byte.toNat - 0x80)
        match later with
        | 0 => (.nothing, [Char.ofNat bits])
        | later + 1 => (.inside later 0x80 0xBF bits, [])
      else
        let (pending, chars) := lead byte
        (pending, replacement :: chars)

/-- What a text that ends here still owes. -/
def finish : Pending → List Char
  | .nothing => []
  | .inside .. => [replacement]

/-- A decoder on its way through a text. -/
structure Decoder where
  pending : Pending
  chars : Array Char

def Decoder.feed (decoder : Decoder) (byte : UInt8) : Decoder :=
  let (pending, chars) := step decoder.pending byte
  { pending, chars := decoder.chars ++ chars }

/-- The characters of a byte string. -/
def decode (bytes : List UInt8) : List Char :=
  let decoder := bytes.foldl Decoder.feed ⟨.nothing, #[]⟩
  (decoder.chars ++ finish decoder.pending).toList

end TapeMachine.Utf8
