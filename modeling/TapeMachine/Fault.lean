/-
# Faults

A fault is a run that cannot go on for a reason of its own: the head would leave the tape, a cell
has no room, or there is no input left. It records where the machine stood. A fault of the tape
knows the head and the cell; the instruction and its position are filled in by the run.
-/

import TapeMachine.Text.Quoted

namespace TapeMachine

inductive FaultKind where
  | unspecified
  | emptyProgram
  | headOverflow
  | headUnderflow
  | dataOverflow
  | dataUnderflow
  | inputExhausted
  deriving DecidableEq

namespace FaultKind

def name : FaultKind → String
  | unspecified => "RuntimeFault"
  | emptyProgram => "EmptyProgram"
  | headOverflow => "HeadOverflow"
  | headUnderflow => "HeadUnderflow"
  | dataOverflow => "DataOverflow"
  | dataUnderflow => "DataUnderflow"
  | inputExhausted => "InputExhausted"

def all : List FaultKind :=
  [unspecified, emptyProgram, headOverflow, headUnderflow, dataOverflow, dataUnderflow,
    inputExhausted]

def ofName? (name : String) : Option FaultKind :=
  all.find? (·.name = name)

end FaultKind

structure Fault where
  kind : FaultKind
  message : String
  ip : Int
  head : Int
  op : Option UInt8
  cell : Option Int
  deriving DecidableEq

namespace Fault

/-- The character of an instruction byte. -/
def symbol (byte : UInt8) : String :=
  String.singleton (Char.ofNat byte.toNat)

/-- Where the machine stood, on one line. -/
def describe (fault : Fault) : String :=
  let op := match fault.op with
    | some byte => Quoted.quote (symbol byte)
    | none => "-"
  let cell := match fault.cell with
    | some value => toString value
    | none => "-"
  s!"ip={fault.ip} head={fault.head} op={op} cell={cell}"

/-- A fault that knows the head and the cell only. -/
def ofTape (kind : FaultKind) (message : String) (head : Int) (cell : Nat) : Fault :=
  { kind, message, ip := 0, head, op := none, cell := some cell }

def headOverflow (size : Nat) (head : Int) (cell : Nat) : Fault :=
  let last := (size : Int) - 1
  ofTape .headOverflow s!"head would move past the last cell ({last})" head cell

def headUnderflow (head : Int) (cell : Nat) : Fault :=
  ofTape .headUnderflow "head would move below cell 0" head cell

def dataOverflow (largest : Nat) (head : Int) (cell : Nat) : Fault :=
  ofTape .dataOverflow s!"cell {head} is already at its maximum ({largest})" head cell

def dataUnderflow (head : Int) (cell : Nat) : Fault :=
  ofTape .dataUnderflow s!"cell {head} is already 0" head cell

def inputExhausted (head : Int) (cell : Nat) : Fault :=
  ofTape .inputExhausted "no more input to read" head cell

/-- The fault of a run on a program without code. -/
def emptyProgram (cell : Nat) : Fault :=
  ofTape .emptyProgram "Code cannot be empty!" 0 cell

end Fault

end TapeMachine
