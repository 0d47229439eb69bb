/-
# Words of a command line

Before anything on a command line takes effect, every word is read for what it is. A word with a
dash in front is a flag if it is the spelling of one, if it is such a spelling with a value behind
an equals sign, if it begins only one long spelling, or if it is a short spelling with more behind
it. Failing that, a negative number and a word with a space in it are plain words, and the rest
are unknown flags. Behind the first `--` every word is plain.
-/

import TapeMachine.CommandLine.Flag
import TapeMachine.Text.Digit

namespace TapeMachine.CommandLine

inductive Word where
  | plain (text : String)
  /-- The first `--`. -/
  | separator
  /-- A flag, whether it is spelled with one dash, and what is attached to it. -/
  | flag (found : Flag) (short : Bool) (attached : Option String)
  | unknown (text : String)
  deriving DecidableEq

/-- A word begins more than one spelling. -/
structure Ambiguity where
  word : String
  candidates : List String
  deriving DecidableEq

namespace Word

/-- A word before and behind its first equals sign. -/
def splitAtEquals (word : List Char) : String × Option String :=
  match word.dropWhile (· ≠ '=') with
  | [] => (String.ofList word, none)
  | _ :: value => (String.ofList (word.takeWhile (· ≠ '=')), some (String.ofList value))

def allDigits (chars : List Char) : Bool :=
  chars.all fun char => (Digit.value? char).isSome

/-- What stands behind the dash of a negative number: digits, or digits with a point before at
least one of them. -/
def isUnsignedNumber (chars : List Char) : Bool :=
  let whole := chars.takeWhile (· ≠ '.')
  match chars.dropWhile (· ≠ '.') with
  | [] => whole ≠ [] && allDigits whole
  | _ :: fraction => allDigits whole && fraction ≠ [] && allDigits fraction

/-- Whether a word is a negative number. One line feed may end it. -/
def isNegativeNumber (word : List Char) : Bool :=
  match word with
  | '-' :: rest =>
      isUnsignedNumber rest ||
        (rest.getLast? = some '\n' && isUnsignedNumber rest.dropLast)
  | _ => false

/-- The spellings that a word with two dashes begins. -/
def candidates (start : String) : List (String × Flag) :=
  Flag.table.filter fun (spelling, _) => start.toList.isPrefixOf spelling.toList

/-- What a word with a dash in front is when it is no spelling of a flag. -/
def classifyRest (word : List Char) : Word :=
  let text := String.ofList word
  if isNegativeNumber word || word.contains ' ' then .plain text else .unknown text

/-- What a word with two dashes in front is when it is no full spelling. -/
def classifyLong (word : List Char) : Except Ambiguity Word :=
  let (start, value) := splitAtEquals word
  match candidates start with
  | [] => .ok (classifyRest word)
  | [(_, found)] => .ok (.flag found false value)
  | several => .error ⟨String.ofList word, several.map (·.1)⟩

/-- What a word with one dash in front is when it is no full spelling. -/
def classifyShort (letter : Char) (rest word : List Char) : Word :=
  match Flag.ofSpelling? (String.ofList ['-', letter]) with
  | some found => .flag found true (some (String.ofList rest))
  | none => classifyRest word

/-- Whether a spelling has one dash in front. -/
def isShort (spelling : String) : Bool := !("--".toList.isPrefixOf spelling.toList)

/-- What a word in front of the first `--` is. -/
def classify (text : String) : Except Ambiguity Word :=
  let word := text.toList
  match word with
  | '-' :: next :: rest =>
      match Flag.ofSpelling? text with
      | some found => .ok (.flag found (isShort text) none)
      | none =>
          let (spelling, value) := splitAtEquals word
          match value, Flag.ofSpelling? spelling with
          | some value, some found => .ok (.flag found (isShort spelling) (some value))
          | _, _ =>
              if next = '-' then classifyLong word else .ok (classifyShort next rest word)
  | _ => .ok (.plain text)

/-- What the words of a command line are. -/
def classifyAll : List String → Except Ambiguity (List Word)
  | [] => .ok []
  | "--" :: words => .ok (.separator :: words.map .plain)
  | word :: words =>
      match classify word with
      | .error ambiguity => .error ambiguity
      | .ok first =>
          match classifyAll words with
          | .error ambiguity => .error ambiguity
          | .ok rest => .ok (first :: rest)

end Word

end TapeMachine.CommandLine
