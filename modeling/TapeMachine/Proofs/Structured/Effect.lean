/-
# Bytes and their effects

A state shows a store if its tape, its unread input and what it has written are those of the
store; its position, its count of steps and its log are nothing that a store knows of. Executing a
byte that is no bracket does to the state what the effect of the byte does to the store. Where the
one is refused so is the other, for the same reason, and the refusal points at the current cell.
-/

import TapeMachine.Proofs.Machine.Step
import TapeMachine.Proofs.Tape.Sound
import TapeMachine.Program.Grammar
import TapeMachine.Structured.Store

namespace TapeMachine

open Structured

/-- The fault tells the head and the current cell of the store. -/
structure Fault.PointsAt (fault : Fault) (store : Store) : Prop where
  head : fault.head = store.head
  cell : fault.cell = some (store.current : Int)

namespace Tape

structure Shows (tape : Tape) (store : Store) : Prop where
  cells : tape.cells.toList = store.cells
  head : tape.head = store.head

/-- What becomes of the tape is what becomes of the store. -/
inductive Mirrors (store : Store) : Attempt TapeError Tape Unit → Except FaultKind Store → Prop
  | done {tape : Tape} {next : Store} (htape : tape.Shows next) (hinput : next.input = store.input)
      (houtput : next.output = store.output) : Mirrors store (.done () tape) (.ok next)
  | refused {fault : Fault} {tape : Tape} (htape : tape.Shows store)
      (hpoints : fault.PointsAt store) :
      Mirrors store (.refused (.fault fault) tape) (.error fault.kind)

variable {config : Config} {tape : Tape} {store : Store}

namespace Shows

theorem toNat_head (hshows : tape.Shows store) : tape.head.toNat = store.head := by
  rw [hshows.head, Int.toNat_natCast]

theorem length_eq (hshows : tape.Shows store) (hsound : tape.Sound config) :
    store.cells.length = config.tapeSize := by
  rw [← hshows.cells, Array.length_toList, hsound.size_eq]

theorem current_eq (hshows : tape.Shows store) : tape.current = store.current := by
  rw [current, Store.current, hshows.toNat_head, List.getD_eq_getElem?_getD, ← hshows.cells,
    Array.getElem?_toList]

theorem put (hshows : tape.Shows store) (value : Nat) :
    (tape.put value).Shows (store.put value) where
  cells := by
    rw [Tape.put, Store.put, Array.toList_setIfInBounds, hshows.cells, hshows.toNat_head]
  head := hshows.head

theorem put_mirrors (hshows : tape.Shows store) (value : Nat) :
    Mirrors store (.done () (tape.put value)) (.ok (store.put value)) :=
  .done (hshows.put value) rfl rfl

theorem pointsAt (hshows : tape.Shows store) {fault : Fault} (hhead : fault.head = tape.head)
    (hcell : fault.cell = some (tape.current : Int)) : fault.PointsAt store where
  head := hhead.trans hshows.head
  cell := by rw [hcell, hshows.current_eq]

theorem right_mirrors (hshows : tape.Shows store) (hsound : tape.Sound config) :
    Mirrors store tape.right store.right := by
  have hhead := hshows.head
  rw [hsound.right_eq, Store.right, hshows.length_eq hsound]
  by_cases hroom : store.head + 1 < config.tapeSize
  · rw [if_pos hroom, if_pos (by omega)]
    exact .done ⟨hshows.cells, congrArg (· + 1) hhead⟩ rfl rfl
  · rw [if_neg hroom, if_neg (by omega)]
    exact .refused hshows (hshows.pointsAt rfl rfl)

theorem left_mirrors (hshows : tape.Shows store) (hsound : tape.Sound config) :
    Mirrors store tape.left store.left := by
  have hhead := hshows.head
  rw [hsound.left_eq, Store.left]
  cases hstore : store.head with
  | zero =>
      rw [if_pos (by omega)]
      exact .refused hshows (hshows.pointsAt rfl rfl)
  | succ head =>
      rw [if_neg (by omega)]
      refine .done ⟨hshows.cells, ?_⟩ rfl rfl
      rw [withHead_head]
      simp only
      omega

theorem increment_mirrors (hshows : tape.Shows store) (hsound : tape.Sound config) :
    Mirrors store (tape.increment config) (store.increment config) := by
  rw [hsound.increment_eq, Store.increment, ← hshows.current_eq]
  by_cases hroom : tape.current < config.width.largest
  · rw [if_pos hroom, if_pos hroom]
    exact hshows.put_mirrors _
  · rw [if_neg hroom, if_neg hroom]
    cases config.overflow with
    | wrap => exact hshows.put_mirrors 0
    | trap => exact .refused hshows (hshows.pointsAt rfl rfl)

theorem decrement_mirrors (hshows : tape.Shows store) (hsound : tape.Sound config) :
    Mirrors store (tape.decrement config) (store.decrement config) := by
  rw [hsound.decrement_eq, Store.decrement, ← hshows.current_eq]
  cases hcurrent : tape.current with
  | succ value =>
      rw [if_pos (Nat.succ_pos value)]
      exact hshows.put_mirrors value
  | zero =>
      rw [if_neg (Nat.lt_irrefl 0)]
      cases config.underflow with
      | wrap => exact hshows.put_mirrors config.width.largest
      | trap =>
          apply Mirrors.refused hshows
          apply hshows.pointsAt rfl
          rw [hcurrent]
          rfl

end Shows

end Tape

namespace State

structure Shows (state : State) (store : Store) : Prop where
  tape : state.tape.Shows store
  input : state.input = .ofBytes store.input
  output : state.output.bytes.toList = store.output

/-- What becomes of a state at a position is what becomes of the store, and the position moves on
by one. -/
inductive Mirrors (ip : Int) (store : Store) :
    Attempt Failure State Unit → Except FaultKind Store → Prop
  | done {after : State} {next : Store} (hip : after.ip = ip + 1) (hshows : after.Shows next) :
      Mirrors ip store (.done () after) (.ok next)
  | refused {fault : Fault} {after : State} (hshows : after.Shows store)
      (hpoints : fault.PointsAt store) :
      Mirrors ip store (.refused (.fault fault) after) (.error fault.kind)

variable {config : Config} {state : State} {store : Store}

namespace Shows

/-- A state shows one store only. -/
theorem unique {first second : Store} (hfirst : state.Shows first)
    (hsecond : state.Shows second) : first = second := by
  have hcells := hfirst.tape.cells.symm.trans hsecond.tape.cells
  have hhead := Int.ofNat.inj (hfirst.tape.head.symm.trans hsecond.tape.head)
  have hinput := Input.ofBytes_inj (hfirst.input.symm.trans hsecond.input)
  have houtput := hfirst.output.symm.trans hsecond.output
  cases first
  cases second
  simp only at hcells hhead hinput houtput
  rw [hcells, hhead, hinput, houtput]

theorem pass_mirrors (hshows : state.Shows store) :
    Mirrors state.ip store (.done () state.pass) (.ok store) :=
  .done rfl ⟨hshows.tape, hshows.input, hshows.output⟩

theorem onTape_mirrors (hshows : state.Shows store)
    {change : Tape → Attempt TapeError Tape Unit} {result : Except FaultKind Store}
    (hmirrors : Tape.Mirrors store (change state.tape) result) :
    Mirrors state.ip store (state.onTape change) result := by
  generalize hattempt : change state.tape = attempt at hmirrors
  cases hmirrors with
  | done htape hinput houtput =>
      rw [onTape_of_done hattempt]
      exact .done rfl ⟨htape, hinput ▸ hshows.input, houtput ▸ hshows.output⟩
  | refused htape hpoints =>
      rw [onTape_of_refused hattempt]
      exact .refused ⟨htape, hshows.input, hshows.output⟩ hpoints

theorem emit_mirrors (hshows : state.Shows store) (hsound : state.tape.Sound config)
    (hsink : state.output.failure = none) :
    Mirrors state.ip store state.emit (.ok store.emit) := by
  rw [emit, hsound.read_eq, Store.emit, ← hshows.tape.current_eq]
  by_cases hwide : 0xFF < state.tape.current
  · rw [if_neg (by omega)]
    simp only [hwide, if_true]
    exact .done rfl ⟨hshows.tape, hshows.input, hshows.output⟩
  · rw [if_pos (by omega)]
    simp only [hwide, if_false, onOutput_of_failure_eq_none _ hsink]
    refine .done rfl ⟨⟨hshows.tape.cells, hshows.tape.head⟩, hshows.input, ?_⟩
    rw [Array.toList_push, hshows.output]

theorem receive_mirrors (hshows : state.Shows store) (hsound : state.tape.Sound config) :
    Mirrors state.ip store (state.receive config) (store.receive config) := by
  rw [receive_eq, hshows.input, Store.receive]
  cases hinput : store.input with
  | cons byte rest =>
      have hstored : State.store config (some byte) state.tape =
          .done () (state.tape.put byte.toNat) := by
        rw [State.store, hsound.write_eq, Width.wrap_byte]
      have hput := hshows.tape.put byte.toNat
      have hread : ({ state with input := .ofBytes rest } : State).onTape
          (State.store config (some byte)) = _ := onTape_of_done hstored
      rw [Input.next_ofBytes_cons, hread]
      exact .done rfl ⟨⟨hput.cells, hput.head⟩, rfl, hshows.output⟩
  | nil =>
      have hread : Shows { state with input := .ofBytes [] } store :=
        ⟨hshows.tape, congrArg Input.ofBytes hinput.symm, hshows.output⟩
      apply hread.onTape_mirrors
      cases hatEnd : config.atEnd with
      | zero =>
          simp only [State.store, hatEnd, hsound.write_eq]
          exact hshows.tape.put_mirrors 0
      | keep =>
          simp only [State.store, hatEnd]
          exact .done hshows.tape rfl rfl
      | fault =>
          simp only [State.store, hatEnd, hsound.refuse_eq]
          exact .refused hshows.tape (hshows.tape.pointsAt rfl rfl)

/-- Executing a byte that is no bracket has the effect of the byte. -/
theorem execute_mirrors {machine : Machine} {byte : UInt8} (hleaf : isBracket byte = false)
    (hshows : state.Shows store) (hsound : state.tape.Sound machine.config)
    (hsink : state.output.failure = none) :
    Mirrors state.ip store (machine.execute byte state) (store.effect machine.config byte) := by
  rw [Machine.execute, Store.effect]
  cases hinstruction : Instruction.ofByte? byte with
  | none => exact hshows.pass_mirrors
  | some instruction =>
      obtain rfl := Instruction.ofByte?_eq_some_iff.mp hinstruction
      cases instruction with
      | right => exact hshows.onTape_mirrors (hshows.tape.right_mirrors hsound)
      | left => exact hshows.onTape_mirrors (hshows.tape.left_mirrors hsound)
      | increment => exact hshows.onTape_mirrors (hshows.tape.increment_mirrors hsound)
      | decrement => exact hshows.onTape_mirrors (hshows.tape.decrement_mirrors hsound)
      | output => exact hshows.emit_mirrors hsound hsink
      | input => exact hshows.receive_mirrors hsound
      | loopStart | loopEnd => contradiction

end Shows

end State

end TapeMachine
