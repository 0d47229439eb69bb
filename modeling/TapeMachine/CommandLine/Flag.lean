/-
# Flags

A flag has one or two spellings: a letter behind one dash, or a word behind two. Some flags take a
value, which follows as a word of its own or, behind an equals sign, in the same word.
-/

namespace TapeMachine.CommandLine

inductive Flag where
  | help
  | tapeSize
  | cellWidth
  | overflow
  | underflow
  | atEnd
  | input
  | stats
  | verbose
  deriving DecidableEq

namespace Flag

def all : List Flag :=
  [help, tapeSize, cellWidth, overflow, underflow, atEnd, input, stats, verbose]

def spellings : Flag → List String
  | help => ["-h", "--help"]
  | tapeSize => ["--tape-size"]
  | cellWidth => ["--cell-width"]
  | overflow => ["--overflow"]
  | underflow => ["--underflow"]
  | atEnd => ["--eof"]
  | input => ["--input"]
  | stats => ["--stats"]
  | verbose => ["-v", "--verbose"]

def takesValue : Flag → Bool
  | help | stats | verbose => false
  | tapeSize | cellWidth | overflow | underflow | atEnd | input => true

/-- How an error message speaks of a flag. -/
def title (flag : Flag) : String := "/".intercalate flag.spellings

/-- Every spelling with its flag. -/
def table : List (String × Flag) :=
  all.flatMap fun flag => flag.spellings.map fun spelling => (spelling, flag)

def ofSpelling? (spelling : String) : Option Flag := table.lookup spelling

end Flag

end TapeMachine.CommandLine
