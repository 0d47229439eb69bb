/-
# Program files

A program file is read only if it holds no more than a given number of bytes. One byte more than
that is asked for, which tells whether there is more. A number one below zero asks for the whole
file, and no smaller one can be asked for. The number has to fit a word, and room for that many
bytes has to be found before any is read.
-/

import TapeMachine.File.Access
import TapeMachine.File.Path
import TapeMachine.Word

namespace TapeMachine

/-- Why a number of bytes cannot be asked for. -/
inductive RequestError where
  | misfit
  | negative
  /-- A byte string of this length cannot be. -/
  | tooLarge
  | outOfMemory
  deriving DecidableEq

namespace RequestError

def message : RequestError → String
  | misfit => Word.misfit
  | negative => "read length must be non-negative or -1"
  | tooLarge => "byte string is too large"
  | outOfMemory => ""

end RequestError

/-- Why a program file is not read. -/
inductive ReadError where
  | unreadable (path : String) (error : OpenError)
  | tooLong (path : String) (limit : Int)
  | embeddedNul
  | request (error : RequestError)
  deriving DecidableEq

namespace ReadError

def message : ReadError → String
  | unreadable path error => s!"Error while reading {path}: {error.reason}"
  | tooLong path limit => s!"Error while reading {path}: file exceeds {limit} bytes"
  | embeddedNul => "embedded null byte"
  | request error => error.message

end ReadError

namespace ProgramFile

/-- The largest program file that is read unless another limit is given: one mebibyte. -/
def sizeLimit : Int := 1048576

/-- The longest byte string. -/
def longest : Int := Word.greatest - 33

/-- The most bytes that there is room for: two to the power 62. -/
def room : Int := 0x4000000000000000

/-- What a request for `length` bytes of some contents yields. -/
def request (contents : List UInt8) (length : Int) : Except RequestError (List UInt8) :=
  if !Word.fits length then .error .misfit
  else if length < -1 then .error .negative
  else if length = -1 then .ok contents
  else if longest < length then .error .tooLarge
  else if room < length then .error .outOfMemory
  else .ok (contents.take length.toNat)

/-- The contents of a program file of at most `limit` bytes. -/
def read (files : FileSystem) (path : String) (limit : Int) : Except ReadError (List UInt8) :=
  let path := Path.normalise path
  match files path with
  | .error .embeddedNul => .error .embeddedNul
  | .error (.system error) => .error (.unreadable path error)
  | .ok contents =>
      match request contents (limit + 1) with
      | .error error => .error (.request error)
      | .ok bytes => if limit < bytes.length then .error (.tooLong path limit) else .ok bytes

end ProgramFile

end TapeMachine
