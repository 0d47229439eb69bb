/-
# Where a step leads

A program whose table was made by hand may jump anywhere that the table says, as long as the table
has an entry for every byte and no target outside the code. What a step can do is then known from
the instruction and the table. A bracket that is not passed follows its entry, or is stuck if that
holds no target; everything else goes on to the next position or meets a fault. In particular an
empty entry leads nowhere, and a bracket that is stuck leaves the whole state as it is.
-/

import TapeMachine.Proofs.Machine.Fetches

namespace TapeMachine

namespace State

/-- An attempt on a state that goes on to the next position or leaves the position as it is, and
that is not refused for want of a target. -/
def Passes (state : State) : Attempt Failure State Unit → Prop
  | .done _ next => next.ip = state.ip + 1
  | .refused reason after => after.ip = state.ip ∧ ∀ error, reason ≠ .jump error

theorem onTape_passes (change : Tape → Attempt TapeError Tape Unit) (state : State) :
    state.Passes (state.onTape change) := by
  cases hchange : change state.tape with
  | done _ tape =>
      rw [onTape_of_done hchange]
      rfl
  | refused reason tape =>
      rw [onTape_of_refused hchange]
      refine ⟨rfl, fun error => ?_⟩
      cases reason <;> exact Failure.noConfusion

theorem emit_passes (state : State) : state.Passes state.emit := by
  rw [emit]
  cases state.tape.read with
  | error error => exact ⟨rfl, fun _ => Failure.noConfusion⟩
  | ok value =>
      by_cases hwide : 0xFF < value
      · simp only [hwide, if_true]
        rfl
      · simp only [hwide, if_false, onOutput]
        cases state.output.emit (UInt8.ofNat value) with
        | done _ output => rfl
        | refused error output => exact ⟨rfl, fun _ => Failure.noConfusion⟩

theorem receive_passes (config : Config) (state : State) :
    state.Passes (state.receive config) := by
  have hpasses := onTape_passes (store config state.input.next.1)
    { state with input := state.input.next.2 }
  rw [receive_eq]
  cases hreceived : ({ state with input := state.input.next.2 } : State).onTape
      (store config state.input.next.1) with
  | done _ next =>
      rw [hreceived] at hpasses
      exact hpasses
  | refused reason after =>
      rw [hreceived] at hpasses
      exact hpasses

end State

namespace Machine

/-- The instruction about to be executed is a bracket that does not lead on to the next position:
`[` at a cell that is zero, or `]` at one that is not. -/
inductive Jumps (machine : Machine) (state : State) : Prop
  | loopStart (hbracket : machine.instruction? state = some .loopStart)
      (hread : state.tape.read = .ok 0)
  | loopEnd {cell : Nat} (hbracket : machine.instruction? state = some .loopEnd)
      (hread : state.tape.read = .ok cell) (hcell : cell ≠ 0)

/-- What a step can come to if all targets are positions of the code. -/
inductive Moves (machine : Machine) (state : State) : Attempt Failure State Unit → Prop
  | passes {next : State} (hpasses : ¬ machine.Jumps state) (hip : next.ip = state.ip + 1) :
      Moves machine state (.done () next)
  | jumps {next : State} {target : Int} (hjumps : machine.Jumps state)
      (hentry : machine.program.jumps[state.ip.toNat]? = some (some target))
      (hinside : 0 ≤ target ∧ target < machine.program.code.size) (hip : next.ip = target + 1) :
      Moves machine state (.done () next)
  | stuck (hjumps : machine.Jumps state)
      (hentry : machine.program.jumps[state.ip.toNat]? = some none) :
      Moves machine state (.refused (.jump (.noTarget state.ip)) state)
  | faults {fault : Fault} {after : State} (hpasses : ¬ machine.Jumps state)
      (hip : after.ip = state.ip) : Moves machine state (.refused (.fault fault) after)

variable {machine : Machine} {state : State}

/-- A bracket jumps, and then it follows its entry, or it leads on to the next position. -/
theorem jumpIf_moves (hclosed : machine.program.Closed) (hstate : state.InRange machine)
    (hrunning : state.ip < machine.program.code.size) {condition : Nat → Bool}
    (hjumps : machine.Jumps state ↔ condition state.tape.current = true) :
    machine.Moves state (machine.jumpIf condition state) := by
  rw [jumpIf, hstate.tape.read_eq]
  cases hcondition : condition state.tape.current with
  | false =>
      simp only [hcondition, Bool.false_eq_true, if_false]
      rw [hcondition] at hjumps
      exact .passes (fun hother => Bool.false_ne_true (hjumps.mp hother)) rfl
  | true =>
      simp only [hcondition, if_true]
      rcases jump_spec hclosed hstate hrunning with
        ⟨target, hentry, hinside, hjump⟩ | ⟨hentry, hjump⟩
      · rw [hjump]
        exact .jumps (hjumps.mpr hcondition) hentry hinside rfl
      · rw [hjump]
        exact .stuck (hjumps.mpr hcondition) hentry

theorem jumps_iff_of_loopStart (hstate : state.InRange machine)
    (hbracket : machine.instruction? state = some .loopStart) :
    machine.Jumps state ↔ decide (state.tape.current = 0) = true := by
  rw [decide_eq_true_iff]
  constructor
  · intro hjumps
    cases hjumps with
    | loopStart _ hread => exact Except.ok.inj (hstate.tape.read_eq.symm.trans hread)
    | loopEnd hother _ _ =>
        rw [hbracket] at hother
        contradiction
  · intro hzero
    exact .loopStart hbracket (hzero ▸ hstate.tape.read_eq)

theorem jumps_iff_of_loopEnd (hstate : state.InRange machine)
    (hbracket : machine.instruction? state = some .loopEnd) :
    machine.Jumps state ↔ decide (state.tape.current ≠ 0) = true := by
  rw [decide_eq_true_iff]
  constructor
  · intro hjumps
    cases hjumps with
    | loopStart hother _ =>
        rw [hbracket] at hother
        contradiction
    | loopEnd _ hread hcell =>
        obtain rfl := Except.ok.inj (hstate.tape.read_eq.symm.trans hread)
        exact hcell
  · intro hne
    exact .loopEnd hbracket hstate.tape.read_eq hne

/-- A byte that is no bracket leads on to the next position, if it is not refused. -/
theorem execute_passes {byte : UInt8} (hstart : Instruction.ofByte? byte ≠ some .loopStart)
    (hend : Instruction.ofByte? byte ≠ some .loopEnd) (state : State) :
    state.Passes (machine.execute byte state) := by
  rw [execute]
  cases hinstruction : Instruction.ofByte? byte with
  | none => rfl
  | some instruction =>
      rw [hinstruction] at hstart hend
      cases instruction with
      | right => exact state.onTape_passes Tape.right
      | left => exact state.onTape_passes Tape.left
      | increment => exact state.onTape_passes (Tape.increment machine.config)
      | decrement => exact state.onTape_passes (Tape.decrement machine.config)
      | output => exact state.emit_passes
      | input => exact state.receive_passes machine.config
      | loopStart => contradiction
      | loopEnd => contradiction

/-- Whatever is no bracket does not jump. -/
theorem executeNext_moves_of_leaf (hclosed : machine.program.Closed)
    (hstate : state.InRange machine) (hrunning : state.ip < machine.program.code.size)
    (hsink : state.output.failure = none) (hstart : machine.instruction? state ≠ some .loopStart)
    (hend : machine.instruction? state ≠ some .loopEnd) :
    machine.Moves state (machine.executeNext state) := by
  have hstays := stays_executeNext hclosed hstate hrunning
  have hpasses : state.Passes (machine.executeNext state) := by
    obtain ⟨byte, -, hfetch⟩ := exists_fetch hstate hrunning
    rw [instruction?_of_fetch hfetch] at hstart hend
    rw [executeNext, hfetch]
    exact execute_passes hstart hend state
  have hleaf : ¬ machine.Jumps state := by
    intro hjumps
    cases hjumps with
    | loopStart hbracket _ => exact hstart hbracket
    | loopEnd hbracket _ _ => exact hend hbracket
  cases hnext : machine.executeNext state with
  | done _ next =>
      rw [hnext] at hpasses
      exact .passes hleaf hpasses
  | refused reason after =>
      rw [hnext] at hpasses hstays
      cases hstays.2 with
      | fault found => exact .faults hleaf hpasses.1
      | output error hfailing => exact absurd hsink hfailing
      | noTarget => exact absurd rfl (hpasses.2 _)

theorem executeNext_moves (hclosed : machine.program.Closed) (hstate : state.InRange machine)
    (hrunning : state.ip < machine.program.code.size) (hsink : state.output.failure = none) :
    machine.Moves state (machine.executeNext state) := by
  by_cases hstart : machine.instruction? state = some .loopStart
  · rw [executeNext_of_instruction? hstart]
    simp only [execute, Instruction.ofByte?_byte]
    exact jumpIf_moves hclosed hstate hrunning (jumps_iff_of_loopStart hstate hstart)
  · by_cases hend : machine.instruction? state = some .loopEnd
    · rw [executeNext_of_instruction? hend]
      simp only [execute, Instruction.ofByte?_byte]
      exact jumpIf_moves hclosed hstate hrunning (jumps_iff_of_loopEnd hstate hend)
    · exact executeNext_moves_of_leaf hclosed hstate hrunning hsink hstart hend

/-- What a step from a state in range can come to. -/
theorem step_moves (hclosed : machine.program.Closed) (hstate : state.InRange machine)
    (hrunning : machine.hasHalted state = false) (hsink : state.output.failure = none) :
    machine.Moves state (machine.step state) := by
  have hmoves := executeNext_moves hclosed hstate (hasHalted_eq_false_iff.mp hrunning) hsink
  rw [step]
  cases hnext : machine.executeNext state with
  | done _ next =>
      rw [hnext] at hmoves
      cases hmoves with
      | passes hpasses hip => exact .passes hpasses hip
      | jumps hjumps hentry hinside hip => exact .jumps hjumps hentry hinside hip
  | refused reason after =>
      rw [hnext] at hmoves
      exact hmoves

/-- A bracket that has to jump and has no target is the only thing that a machine is stuck at. -/
theorem Moves.eq_of_stuck {attempt : Attempt Failure State Unit}
    (hmoves : machine.Moves state attempt) (hjumps : machine.Jumps state)
    (hentry : machine.program.jumps[state.ip.toNat]? = some none) :
    attempt = .refused (.jump (.noTarget state.ip)) state := by
  cases hmoves with
  | passes hpasses | faults hpasses => exact absurd hjumps hpasses
  | jumps _ hsome =>
      rw [hentry] at hsome
      exact absurd (Option.some.inj hsome).symm (Option.some_ne_none _)
  | stuck => rfl

/-- A bracket that jumps has been fetched from the code. -/
theorem Jumps.ip_lt (hjumps : machine.Jumps state) :
    state.ip < machine.program.code.size := by
  rw [← hasHalted_eq_false_iff]
  cases hhalted : machine.hasHalted state with
  | false => rfl
  | true =>
      cases hjumps with
      | loopStart hbracket | loopEnd hbracket =>
          rw [instruction?_of_halted hhalted] at hbracket
          contradiction

end Machine

end TapeMachine
