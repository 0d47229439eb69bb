/-
# What a run fetches

The states in which the instructions of a run are fetched, one after another. A refused instruction
ends its run, and its state is the last of them. In those at `,` the next byte of the input is
taken, and in those at `.` the current cell is written, if it is a byte. So the input and the output
of a run are known from what it has fetched.
-/

import TapeMachine.Proofs.Machine.Channels
import TapeMachine.Proofs.Machine.Range

namespace TapeMachine

namespace Input

@[simp]
theorem next_ofBytes (bytes : List UInt8) :
    (ofBytes bytes).next = (bytes.head?, ofBytes (bytes.drop 1)) := by
  cases bytes <;> rfl

end Input

namespace Sink

/-- The sink behind a byte that it has taken and flushed. -/
def accept (byte : UInt8) (sink : Sink) : Sink :=
  { sink with bytes := sink.bytes.push byte, flushes := sink.flushes + 1 }

end Sink

namespace State

/-- The current cell as a byte, unless its value is too large for one. -/
def byte? (state : State) : Option UInt8 :=
  if state.tape.current ≤ 0xFF then some (UInt8.ofNat state.tape.current) else none

theorem emit_of_byte?_eq_some {config : Config} {state : State} {byte : UInt8}
    (hsound : state.tape.Sound config) (hbyte : state.byte? = some byte) :
    state.emit = state.onOutput byte := by
  rw [byte?] at hbyte
  split at hbyte
  · rename_i hfits
    rw [emit, hsound.read_eq]
    simp only [Nat.not_lt.mpr hfits, if_false, Option.some.inj hbyte]
  · contradiction

theorem emit_of_byte?_eq_none {config : Config} {state : State}
    (hsound : state.tape.Sound config) (hbyte : state.byte? = none) :
    state.emit = .done () { state.pass with
      log := state.log.push (.skippedOutput state.tape.current state.ip) } := by
  rw [byte?] at hbyte
  split at hbyte
  · contradiction
  · rename_i hwide
    rw [emit, hsound.read_eq]
    simp only [Nat.lt_of_not_le hwide, if_true]

end State

namespace Machine

/-- The instruction about to be executed. There is none at a comment and behind the code. -/
def instruction? (machine : Machine) (state : State) : Option Instruction :=
  (machine.program.fetch state.ip).toOption.bind Instruction.ofByte?

/-- The byte that the instruction about to be executed is to write. -/
def written? (machine : Machine) (state : State) : Option UInt8 :=
  if machine.instruction? state = some .output then state.byte? else none

/-- The states in which the first steps of a run fetch their instructions, in order. -/
def fetches (machine : Machine) : Nat → State → List State
  | 0, _ => []
  | count + 1, state =>
      if machine.hasHalted state then []
      else
        match machine.step state with
        | .done _ next => state :: machine.fetches count next
        | .refused _ _ => [state]

/-- The states in which the first steps of a run execute an instruction of one sort. -/
def executions (machine : Machine) (instruction : Instruction) (count : Nat) (state : State) :
    List State :=
  (machine.fetches count state).filter (machine.instruction? · = some instruction)

variable {machine : Machine} {state next last : State} {instruction : Instruction}

theorem instruction?_of_fetch {byte : UInt8}
    (hfetch : machine.program.fetch state.ip = .ok byte) :
    machine.instruction? state = Instruction.ofByte? byte := by
  rw [instruction?, hfetch]
  rfl

/-- There is nothing to execute where a machine has halted. -/
theorem instruction?_of_halted (hhalted : machine.hasHalted state = true) :
    machine.instruction? state = none := by
  rw [instruction?, Program.fetch,
    Index.resolve_eq_none_iff.mpr (.inr (of_decide_eq_true hhalted))]
  rfl

/-- An instruction that is about to be executed has been fetched from the code. -/
theorem executeNext_of_instruction?
    (hinstruction : machine.instruction? state = some instruction) :
    machine.executeNext state = machine.execute instruction.byte state := by
  rw [instruction?] at hinstruction
  rw [executeNext]
  cases hfetch : machine.program.fetch state.ip with
  | error error =>
      rw [hfetch] at hinstruction
      contradiction
  | ok byte =>
      rw [hfetch] at hinstruction
      rw [Instruction.byte_of_ofByte? hinstruction]

/-- A step counts itself and leaves the channels as the instruction does. -/
theorem step_sameChannels (machine : Machine) (state : State) :
    (machine.executeNext state).state.SameChannels (machine.step state).state := by
  rw [step]
  cases machine.executeNext state <;> exact ⟨rfl, rfl⟩

/-- A step takes from the input if it executes `,`, and leaves it alone otherwise. -/
theorem step_input (machine : Machine) (state : State) :
    (machine.step state).state.input =
      if machine.instruction? state = some .input then state.input.next.2 else state.input := by
  rw [(machine.step_sameChannels state).input, executeNext, instruction?]
  cases machine.program.fetch state.ip with
  | error error => rfl
  | ok byte => exact machine.execute_input byte state

/-- A step writes a byte if it executes `.` on a cell that fits in one, and nothing otherwise. -/
theorem step_output (hsound : state.tape.Sound machine.config)
    (hsink : state.output.failure = none) :
    (machine.step state).state.output =
      match machine.written? state with
      | some byte => state.output.accept byte
      | none => state.output := by
  rw [(machine.step_sameChannels state).output, executeNext, written?, instruction?]
  cases machine.program.fetch state.ip with
  | error error => rfl
  | ok byte =>
      change (machine.execute byte state).state.output =
        match if Instruction.ofByte? byte = some .output then state.byte? else none with
        | some byte => state.output.accept byte
        | none => state.output
      by_cases houtput : Instruction.ofByte? byte = some .output
      · rw [if_pos houtput]
        simp only [execute, houtput]
        cases hbyte : state.byte? with
        | some byte =>
            rw [State.emit_of_byte?_eq_some hsound hbyte,
              State.onOutput_of_failure_eq_none byte hsink]
            rfl
        | none =>
            rw [State.emit_of_byte?_eq_none hsound hbyte]
            rfl
      · rw [if_neg houtput]
        by_cases hinput : Instruction.ofByte? byte = some .input
        · simp only [execute, hinput, State.receive_eq]
          exact (State.onTape_sameChannels _ { state with input := state.input.next.2 }).output
        · exact (execute_sameChannels hinput houtput state).output

theorem step_bytes (hsound : state.tape.Sound machine.config)
    (hsink : state.output.failure = none) :
    (machine.step state).state.output.bytes.toList =
      state.output.bytes.toList ++ (machine.written? state).toList := by
  rw [step_output hsound hsink]
  cases machine.written? state with
  | some byte => exact Array.toList_push
  | none => exact (List.append_nil _).symm

theorem step_failure (machine : Machine) (state : State) :
    (machine.step state).state.output.failure = state.output.failure := by
  rw [(machine.step_sameChannels state).output]
  exact (machine.executeNext_kept state).failure

/-- A run leaves a sink as reliable as it was. -/
theorem advance_failure (machine : Machine) (fuel : Nat) (state : State) :
    (machine.advance fuel state).state.output.failure = state.output.failure := by
  induction fuel, state using machine.run_induction with
  | spent state hrunning => rw [advance_zero hrunning]; rfl
  | halted fuel state hhalted => rw [advance_of_halted hhalted]; rfl
  | refused fuel state reason last hrunning hstep =>
      have hlast := machine.step_failure state
      rw [hstep] at hlast
      rw [advance_of_refused hrunning hstep]
      exact hlast
  | done fuel state next hrunning hstep ih =>
      have hnext := machine.step_failure state
      rw [hstep] at hnext
      rw [advance_of_done hrunning hstep]
      exact ih.trans hnext

section Fetches

variable {fuel : Nat}

theorem fetches_of_halted (hhalted : machine.hasHalted state = true) :
    machine.fetches fuel state = [] := by
  cases fuel with
  | zero => rfl
  | succ fuel => rw [fetches, if_pos hhalted]

theorem fetches_of_done (hrunning : machine.hasHalted state = false)
    (hstep : machine.step state = .done () next) :
    machine.fetches (fuel + 1) state = state :: machine.fetches fuel next := by
  rw [fetches, hrunning, hstep]
  rfl

theorem fetches_of_refused {reason : Failure} (hrunning : machine.hasHalted state = false)
    (hstep : machine.step state = .refused reason last) :
    machine.fetches (fuel + 1) state = [state] := by
  rw [fetches, hrunning, hstep]
  rfl

/-- A run that has come so far is in the state that it has reached. -/
theorem Reaches.advance_state {count : Nat} (hreaches : machine.Reaches count state last) :
    (machine.advance count state).state = last := by
  have hadvance := hreaches.advance_add 0
  rw [Nat.add_zero] at hadvance
  rw [hadvance, advance]
  cases machine.hasHalted last <;> rfl

/-- The first state in which a run fetches is the one that it begins in, and the others follow the
step that is taken there. -/
theorem fetches_eq_cons {first : State} {rest : List State}
    (hfetches : machine.fetches fuel state = first :: rest) :
    first = state ∧ machine.hasHalted state = false ∧
      ∃ more, fuel = more + 1 ∧
        (rest = [] ∨ ∃ next, machine.step state = .done () next ∧
          rest = machine.fetches more next) := by
  cases hhalted : machine.hasHalted state with
  | true =>
      rw [fetches_of_halted hhalted] at hfetches
      contradiction
  | false =>
      cases fuel with
      | zero => contradiction
      | succ fuel =>
          cases hstep : machine.step state with
          | done _ next =>
              rw [fetches_of_done hhalted hstep] at hfetches
              obtain ⟨rfl, rfl⟩ := List.cons.inj hfetches
              exact ⟨rfl, rfl, fuel, rfl, .inr ⟨next, rfl, rfl⟩⟩
          | refused reason last =>
              rw [fetches_of_refused hhalted hstep] at hfetches
              obtain ⟨rfl, rfl⟩ := List.cons.inj hfetches
              exact ⟨rfl, rfl, fuel, rfl, .inl rfl⟩

/-- A state in which a run fetches is reached once those before it have been passed. -/
theorem reaches_of_fetches_eq {before after : List State} {fetched : State}
    (hfetches : machine.fetches fuel state = before ++ fetched :: after) :
    before.length < fuel ∧ machine.Reaches before.length state fetched ∧
      machine.hasHalted fetched = false ∧ machine.fetches before.length state = before := by
  induction before generalizing fuel state with
  | nil =>
      obtain ⟨rfl, hrunning, more, rfl, -⟩ := fetches_eq_cons hfetches
      exact ⟨Nat.succ_pos more, .refl, hrunning, rfl⟩
  | cons first before ih =>
      obtain ⟨rfl, hrunning, more, rfl, hnil | ⟨next, hstep, hrest⟩⟩ := fetches_eq_cons hfetches
      · simp at hnil
      · obtain ⟨hlt, hreaches, hfetched, hbefore⟩ := ih hrest.symm
        refine ⟨Nat.succ_lt_succ hlt, .step hrunning hstep hreaches, hfetched, ?_⟩
        rw [List.length_cons, fetches_of_done hrunning hstep, hbefore]

theorem exists_reaches_of_mem_fetches {fetched : State}
    (hmem : fetched ∈ machine.fetches fuel state) :
    ∃ count, machine.Reaches count state fetched := by
  obtain ⟨before, after, hfetches⟩ := List.append_of_mem hmem
  exact ⟨_, (reaches_of_fetches_eq hfetches).2.1⟩

/-- Of the states of one kind in which a run fetches, each is reached once those before it have
been passed. -/
theorem exists_reaches_of_fetched {Kind : State → Bool} {number : Nat} {fetched : State}
    (hfetched : ((machine.fetches fuel state).filter Kind)[number]? = some fetched) :
    ∃ count, count < fuel ∧ machine.Reaches count state fetched ∧
      machine.hasHalted fetched = false ∧ Kind fetched = true ∧
      ((machine.fetches count state).filter Kind).length = number := by
  obtain ⟨hlt, hfetched⟩ := List.getElem?_eq_some_iff.mp hfetched
  have hsplit := (List.take_append_drop number ((machine.fetches fuel state).filter Kind)).symm
  rw [List.drop_eq_getElem_cons hlt, hfetched] at hsplit
  obtain ⟨earlier, later, hfetches, hearlier, hlater⟩ := List.filter_eq_append_iff.mp hsplit
  obtain ⟨others, after, rfl, hothers, hkind, -⟩ := List.filter_eq_cons_iff.mp hlater
  rw [← List.append_assoc] at hfetches
  obtain ⟨hcount, hreaches, hrunning, hbefore⟩ := reaches_of_fetches_eq hfetches
  refine ⟨_, hcount, hreaches, hrunning, hkind, ?_⟩
  rw [hbefore, List.filter_append, hearlier, List.filter_eq_nil_iff.mpr hothers,
    List.append_nil, List.length_take, Nat.min_eq_left (Nat.le_of_lt hlt)]

theorem executions_of_halted (hhalted : machine.hasHalted state = true) :
    machine.executions instruction fuel state = [] := by
  rw [executions, fetches_of_halted hhalted, List.filter_nil]

theorem executions_of_done (hrunning : machine.hasHalted state = false)
    (hstep : machine.step state = .done () next) :
    machine.executions instruction (fuel + 1) state =
      (if machine.instruction? state = some instruction then [state] else []) ++
        machine.executions instruction fuel next := by
  rw [executions, fetches_of_done hrunning hstep, List.filter_cons, executions]
  by_cases hinstruction : machine.instruction? state = some instruction <;> simp [hinstruction]

theorem executions_of_refused {reason : Failure} (hrunning : machine.hasHalted state = false)
    (hstep : machine.step state = .refused reason last) :
    machine.executions instruction (fuel + 1) state =
      if machine.instruction? state = some instruction then [state] else [] := by
  rw [executions, fetches_of_refused hrunning hstep, List.filter_cons]
  by_cases hinstruction : machine.instruction? state = some instruction <;> simp [hinstruction]

/-- What is to be written is what the cells hold at which `.` is executed. -/
theorem filterMap_written? :
    (machine.fetches fuel state).filterMap machine.written? =
      (machine.executions .output fuel state).filterMap State.byte? := by
  rw [executions, List.filterMap_filter]
  congr 1
  funext fetched
  simp only [written?, decide_eq_true_eq]

end Fetches

/-- A run takes one byte of its input each time that it executes `,`. -/
theorem advance_input (machine : Machine) (fuel : Nat) (state : State) {input : List UInt8}
    (hinput : state.input = .ofBytes input) :
    (machine.advance fuel state).state.input =
      .ofBytes (input.drop (machine.executions .input fuel state).length) := by
  induction fuel, state using machine.run_induction generalizing input with
  | spent state hrunning =>
      rw [advance_zero hrunning]
      exact hinput
  | halted fuel state hhalted =>
      rw [advance_of_halted hhalted, executions_of_halted hhalted]
      exact hinput
  | refused fuel state reason last hrunning hstep =>
      have hlast := machine.step_input state
      rw [hstep, hinput] at hlast
      rw [advance_of_refused hrunning hstep, executions_of_refused hrunning hstep]
      by_cases hread : machine.instruction? state = some .input
      · rw [if_pos hread, Input.next_ofBytes] at hlast
        rw [if_pos hread]
        exact hlast
      · rw [if_neg hread] at hlast
        rw [if_neg hread]
        exact hlast
  | done fuel state next hrunning hstep ih =>
      have hnext := machine.step_input state
      rw [hstep, hinput] at hnext
      rw [advance_of_done hrunning hstep, executions_of_done hrunning hstep]
      by_cases hread : machine.instruction? state = some .input
      · rw [if_pos hread, Input.next_ofBytes] at hnext
        rw [ih hnext, if_pos hread, List.drop_drop, List.length_append]
        rfl
      · rw [if_neg hread] at hnext
        rw [ih hnext, if_neg hread, List.nil_append]

/-- A run writes what its instructions are to write, in their order. -/
theorem advance_output (hclosed : machine.program.Closed) (fuel : Nat) (state : State)
    (hstate : state.InRange machine) (hsink : state.output.failure = none) :
    (machine.advance fuel state).state.output.bytes.toList =
      state.output.bytes.toList ++ (machine.fetches fuel state).filterMap machine.written? := by
  induction fuel, state using machine.run_induction with
  | spent state hrunning =>
      rw [advance_zero hrunning]
      exact (List.append_nil _).symm
  | halted fuel state hhalted =>
      rw [advance_of_halted hhalted, fetches_of_halted hhalted]
      exact (List.append_nil _).symm
  | refused fuel state reason last hrunning hstep =>
      have hlast := step_bytes hstate.tape hsink
      rw [hstep] at hlast
      rw [advance_of_refused hrunning hstep, fetches_of_refused hrunning hstep,
        List.filterMap_eq_flatMap_toList, List.flatMap_singleton]
      exact hlast
  | done fuel state next hrunning hstep ih =>
      have hnext := step_bytes hstate.tape hsink
      have hreliable := machine.step_failure state
      rw [hstep] at hnext hreliable
      rw [advance_of_done hrunning hstep, fetches_of_done hrunning hstep,
        List.filterMap_eq_flatMap_toList, List.flatMap_cons, ← List.filterMap_eq_flatMap_toList,
        ← List.append_assoc, ← hnext]
      exact ih (step_inRange hclosed hstate hrunning hstep) (hreliable.trans hsink)

end Machine

end TapeMachine
