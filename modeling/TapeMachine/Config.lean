/-
# The configuration of a machine

A configuration fixes the length of the tape, the width of its cells, and what happens where an
instruction has no obvious meaning: `+` on a full cell, `-` on a zero cell, and `,` at the end of
the input.
-/

namespace TapeMachine

/-- The width of a cell in bits. -/
inductive Width where
  | eight
  | sixteen
  | thirtyTwo
  deriving DecidableEq

namespace Width

def bits : Width → Nat
  | eight => 8
  | sixteen => 16
  | thirtyTwo => 32

/-- The number of bytes that a cell takes. -/
def bytes (width : Width) : Nat := width.bits / 8

/-- The number of values of a cell: two to the power of its bits. -/
def count : Width → Nat
  | eight => 256
  | sixteen => 65536
  | thirtyTwo => 4294967296

/-- The largest value of a cell. -/
def largest (width : Width) : Nat := width.count - 1

/-- The value that a cell keeps of an integer: its remainder modulo the number of values. -/
def wrap (width : Width) (value : Int) : Nat := (value % width.count).toNat

def ofBits? : Int → Option Width
  | 8 => some eight
  | 16 => some sixteen
  | 32 => some thirtyTwo
  | _ => none

theorem wrap_le_largest (width : Width) (value : Int) : width.wrap value ≤ width.largest := by
  unfold wrap largest
  cases width <;> simp only [count] <;> omega

theorem wrap_of_le_largest {width : Width} {value : Nat} (hle : value ≤ width.largest) :
    width.wrap value = value := by
  unfold wrap
  unfold largest at hle
  cases width <;> simp only [count] at * <;> omega

end Width

/-- What an instruction does where the cell has no room for its result. -/
inductive Boundary where
  | wrap
  | trap
  deriving DecidableEq

namespace Boundary

def name : Boundary → String
  | wrap => "wrap"
  | trap => "trap"

def ofName? : String → Option Boundary
  | "wrap" => some wrap
  | "trap" => some trap
  | _ => none

end Boundary

/-- What `,` does when there is no more input. -/
inductive EndOfInput where
  /-- The cell becomes zero. -/
  | zero
  /-- The cell stays as it is. -/
  | keep
  /-- The run ends with a fault. -/
  | fault
  deriving DecidableEq

namespace EndOfInput

def name : EndOfInput → String
  | zero => "zero"
  | keep => "keep"
  | fault => "fault"

def ofName? : String → Option EndOfInput
  | "zero" => some zero
  | "keep" => some keep
  | "fault" => some fault
  | _ => none

end EndOfInput

structure Config where
  tapeSize : Nat
  tapeSize_pos : 0 < tapeSize
  width : Width
  overflow : Boundary
  underflow : Boundary
  atEnd : EndOfInput
  deriving DecidableEq

end TapeMachine
