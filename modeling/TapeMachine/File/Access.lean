/-
# Opening files

What a program knows of the files around it: a path can be opened for reading or not, and if not
there is a reason. A path with a NUL character is refused before any file is looked for.
-/

import TapeMachine.SystemError

namespace TapeMachine

/-- Why the system does not open a file: an error of the system, by its number. -/
structure OpenError where
  number : Int
  deriving DecidableEq

namespace OpenError

def notFound : OpenError := ⟨2⟩

def notDirectory : OpenError := ⟨20⟩

def isDirectory : OpenError := ⟨21⟩

def nameTooLong : OpenError := ⟨36⟩

def reason (error : OpenError) : String := SystemError.text error.number

end OpenError

inductive AccessError where
  | system (error : OpenError)
  | embeddedNul
  deriving DecidableEq

/-- The contents of the files that can be opened. -/
abbrev FileSystem := String → Except AccessError (List UInt8)

end TapeMachine
