/-
# Runs

A run takes steps until the machine has halted or a step is refused. Some runs never end, so a
run is given a number of steps to take; one that is still going then can be taken further.
-/

import TapeMachine.Machine.Step

namespace TapeMachine

/-- How far a run has come. -/
inductive Progress where
  | running (state : State)
  | halted (state : State)
  | failed (reason : Failure) (state : State)
  deriving DecidableEq

namespace Progress

def state : Progress → State
  | running state => state
  | halted state => state
  | failed _ state => state

end Progress

namespace Machine

/-- Take at most `fuel` steps. -/
def advance (machine : Machine) (fuel : Nat) (state : State) : Progress :=
  if machine.hasHalted state then .halted state
  else
    match fuel with
    | 0 => .running state
    | fuel + 1 =>
        match machine.step state with
        | .done _ state => advance machine fuel state
        | .refused reason state => .failed reason state

/-- A fault of a run shows the instruction that met it and its position. -/
def locate (machine : Machine) (fault : Fault) (ip : Int) : Fault :=
  { fault with ip, op := (machine.program.fetch ip).toOption }

/-- Log the end of a run. A failure that is no fault is not logged. -/
def conclude (machine : Machine) : Progress → Progress
  | .running state => .running state
  | .halted state => .halted { state with log := state.log.push (.halted state.steps) }
  | .failed (.fault fault) state =>
      let fault := machine.locate fault state.ip
      .failed (.fault fault) { state with log := state.log.push (.faulted fault) }
  | .failed reason state => .failed reason state

end Machine

end TapeMachine
