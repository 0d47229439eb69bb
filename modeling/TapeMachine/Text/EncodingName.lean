/-
# Names of encodings

An encoding has a name of its own and some aliases. Of a name only the ASCII letters, the digits
and the points are significant, letters in either case; whatever stands between them counts as
one underscore. In an alias a point may stand for an underscore as well.
-/

import TapeMachine.Text.Encoding

namespace TapeMachine.Encoding

/-- Whether a character of a name is significant. -/
def isNameChar (char : Char) : Bool := char.isAlphanum || char = '.'

/-- A name in its normal form. -/
def normalName (name : String) : List Char :=
  let pieces := (name.toList.splitOnP (!isNameChar ·)).filter (· ≠ [])
  List.intercalate ['_'] (pieces.map (·.map Char.toLower))

/-- The names of the encodings. -/
def names : List (String × Encoding) :=
  [("ascii", .ascii), ("latin_1", .latin1), ("utf_8", .utf8), ("utf_8_sig", .markedUtf8),
    ("utf_16", .utf16 none), ("utf_16_le", .utf16 (some .lowFirst)),
    ("utf_16_be", .utf16 (some .highFirst)), ("utf_32", .utf32 none),
    ("utf_32_le", .utf32 (some .lowFirst)), ("utf_32_be", .utf32 (some .highFirst))]

/-- Other names of the encodings. -/
def aliases : List (String × Encoding) :=
  [("646", .ascii), ("ansi_x3.4_1968", .ascii), ("ansi_x3_4_1968", .ascii),
    ("ansi_x3.4_1986", .ascii), ("cp367", .ascii), ("csascii", .ascii), ("ibm367", .ascii),
    ("iso646_us", .ascii), ("iso_646.irv_1991", .ascii), ("iso_ir_6", .ascii), ("us", .ascii),
    ("us_ascii", .ascii), ("8859", .latin1), ("cp819", .latin1), ("csisolatin1", .latin1),
    ("ibm819", .latin1), ("iso8859", .latin1), ("iso8859_1", .latin1), ("iso_8859_1", .latin1),
    ("iso_8859_1_1987", .latin1), ("iso_ir_100", .latin1), ("l1", .latin1), ("latin", .latin1),
    ("latin1", .latin1), ("u8", .utf8), ("utf", .utf8), ("utf8", .utf8), ("utf8_ucs2", .utf8),
    ("utf8_ucs4", .utf8), ("cp65001", .utf8), ("u16", .utf16 none), ("utf16", .utf16 none),
    ("unicodelittleunmarked", .utf16 (some .lowFirst)), ("utf_16le", .utf16 (some .lowFirst)),
    ("unicodebigunmarked", .utf16 (some .highFirst)), ("utf_16be", .utf16 (some .highFirst)),
    ("u32", .utf32 none), ("utf32", .utf32 none), ("utf_32le", .utf32 (some .lowFirst)),
    ("utf_32be", .utf32 (some .highFirst))]

def ofName (name : String) : Encoding :=
  if name.toList.contains '\x00' then unknown name
  else
    let normal := normalName name
    let plain := normal.map fun char => if char = '.' then '_' else char
    let found := names.lookup (String.ofList normal)
      |>.or (aliases.lookup (String.ofList normal))
      |>.or (aliases.lookup (String.ofList plain))
    found.getD (unknown name)

end TapeMachine.Encoding
