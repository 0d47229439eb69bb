/-
# States in range

The position of a machine stays between the beginning and the end of the code, the head stays on
the tape, and every cell keeps to its width. One instruction preserves this, executed or refused,
as long as no jump of the program leaves the code, so every reachable state has it.

From a state in range an instruction is refused for one of three reasons: a fault, a sink that is
set to fail, or a bracket without a target. A loaded program has a target for every bracket.
-/

import TapeMachine.Proofs.Interpreter.Run
import TapeMachine.Proofs.Program.Loaded

namespace TapeMachine

structure State.InRange (machine : Machine) (state : State) : Prop where
  ip_nonneg : 0 ≤ state.ip
  ip_le : state.ip ≤ machine.program.code.size
  tape : state.tape.Sound machine.config

namespace Tape

/-- An attempt on a tape that keeps it sound and can only be refused with a fault. -/
def Keeps (config : Config) : Attempt TapeError Tape Unit → Prop
  | .done _ tape => tape.Sound config
  | .refused reason tape => tape.Sound config ∧ ∃ fault, reason = .fault fault

variable {config : Config} {tape : Tape}

theorem Sound.right_keeps (hsound : tape.Sound config) : Keeps config tape.right := by
  rw [hsound.right_eq]
  by_cases hroom : tape.head + 1 < config.tapeSize
  · rw [if_pos hroom]
    exact hsound.withHead (by have := hsound.head_nonneg; omega) hroom
  · rw [if_neg hroom]
    exact ⟨hsound, _, rfl⟩

theorem Sound.left_keeps (hsound : tape.Sound config) : Keeps config tape.left := by
  have hnonneg := hsound.head_nonneg
  have hlt := hsound.head_lt
  rw [hsound.left_eq]
  by_cases hfirst : tape.head = 0
  · rw [if_pos hfirst]
    exact ⟨hsound, _, rfl⟩
  · rw [if_neg hfirst]
    exact hsound.withHead (by omega) (by omega)

theorem Sound.increment_keeps (hsound : tape.Sound config) :
    Keeps config (tape.increment config) := by
  rw [hsound.increment_eq]
  by_cases hroom : tape.current < config.width.largest
  · rw [if_pos hroom]
    exact hsound.put hroom
  · rw [if_neg hroom]
    cases config.overflow with
    | wrap => exact hsound.put (Nat.zero_le _)
    | trap => exact ⟨hsound, _, rfl⟩

theorem Sound.decrement_keeps (hsound : tape.Sound config) :
    Keeps config (tape.decrement config) := by
  rw [hsound.decrement_eq]
  by_cases hpos : 0 < tape.current
  · rw [if_pos hpos]
    exact hsound.put (Nat.le_trans (Nat.sub_le _ _) hsound.current_le)
  · rw [if_neg hpos]
    cases config.underflow with
    | wrap => exact hsound.put (Nat.le_refl _)
    | trap => exact ⟨hsound, _, rfl⟩

theorem Sound.store_keeps (hsound : tape.Sound config) (byte : Option UInt8) :
    Keeps config (State.store config byte tape) := by
  cases byte with
  | some byte =>
      rw [State.store, hsound.write_eq]
      exact hsound.put (Width.wrap_le_largest _ _)
  | none =>
      cases hatEnd : config.atEnd with
      | zero =>
          simp only [State.store, hatEnd, hsound.write_eq]
          exact hsound.put (Width.wrap_le_largest _ _)
      | keep =>
          simp only [State.store, hatEnd]
          exact hsound
      | fault =>
          simp only [State.store, hatEnd, hsound.refuse_eq]
          exact ⟨hsound, _, rfl⟩

end Tape

namespace Machine

/-- The reasons for which an instruction can be refused in a state in range. -/
inductive Refuses (machine : Machine) (state : State) : Failure → Prop
  | fault (found : Fault) : Refuses machine state (.fault found)
  | output (error : SinkError) (hsink : state.output.failure ≠ none) :
      Refuses machine state (.output error)
  | noTarget {byte : UInt8} (hbracket : isBracket byte = true)
      (hbyte : machine.program.code.toList[state.ip.toNat]? = some byte)
      (hnone : machine.program.jumps[state.ip.toNat]? = some none) :
      Refuses machine state (.jump (.noTarget state.ip))

/-- An attempt on a state that leads to a state in range, whatever becomes of it. -/
def Stays (machine : Machine) (state : State) : Attempt Failure State Unit → Prop
  | .done _ after => after.InRange machine
  | .refused reason after => after.InRange machine ∧ machine.Refuses state reason

variable {machine : Machine} {state : State}

theorem stays_pass (hstate : state.InRange machine)
    (hrunning : state.ip < machine.program.code.size) :
    machine.Stays state (.done () state.pass) where
  ip_nonneg := Int.le_add_one hstate.ip_nonneg
  ip_le := hrunning
  tape := hstate.tape

theorem stays_onTape (hstate : state.InRange machine)
    (hrunning : state.ip < machine.program.code.size) {change : Tape → Attempt TapeError Tape Unit}
    (hkeeps : Tape.Keeps machine.config (change state.tape)) :
    machine.Stays state (state.onTape change) := by
  cases hchange : change state.tape with
  | done _ tape =>
      rw [hchange] at hkeeps
      rw [State.onTape_of_done hchange]
      exact ⟨Int.le_add_one hstate.ip_nonneg, hrunning, hkeeps⟩
  | refused reason tape =>
      rw [hchange] at hkeeps
      obtain ⟨hsound, fault, rfl⟩ := hkeeps
      rw [State.onTape_of_refused hchange]
      exact ⟨⟨hstate.ip_nonneg, hstate.ip_le, hsound⟩, .fault fault⟩

theorem stays_onOutput (hstate : state.InRange machine)
    (hrunning : state.ip < machine.program.code.size) (byte : UInt8) :
    machine.Stays state (state.onOutput byte) := by
  cases hfailure : state.output.failure with
  | none =>
      rw [State.onOutput_of_failure_eq_none byte hfailure]
      exact ⟨Int.le_add_one hstate.ip_nonneg, hrunning, hstate.tape⟩
  | some failure =>
      rw [State.onOutput]
      cases state.output.emit byte with
      | done _ output => exact ⟨Int.le_add_one hstate.ip_nonneg, hrunning, hstate.tape⟩
      | refused error output =>
          refine ⟨⟨hstate.ip_nonneg, hstate.ip_le, hstate.tape⟩, .output error ?_⟩
          rw [hfailure]
          exact Option.some_ne_none failure

theorem stays_emit (hstate : state.InRange machine)
    (hrunning : state.ip < machine.program.code.size) : machine.Stays state state.emit := by
  rw [State.emit, hstate.tape.read_eq]
  by_cases hwide : 0xFF < state.tape.current
  · simp only [hwide, if_true]
    exact ⟨Int.le_add_one hstate.ip_nonneg, hrunning, hstate.tape⟩
  · simp only [hwide, if_false]
    exact stays_onOutput hstate hrunning _

/-- What an instruction has read does not matter for the reasons to refuse it. -/
theorem Stays.of_input {input : Input} {attempt : Attempt Failure State Unit}
    (hstays : machine.Stays { state with input } attempt) : machine.Stays state attempt := by
  cases attempt with
  | done _ after => exact hstays
  | refused reason after =>
      refine ⟨hstays.1, ?_⟩
      cases hstays.2 with
      | fault found => exact .fault found
      | output error hsink => exact .output error hsink
      | noTarget hbracket hbyte hnone => exact .noTarget hbracket hbyte hnone

theorem stays_receive (hstate : state.InRange machine)
    (hrunning : state.ip < machine.program.code.size) :
    machine.Stays state (state.receive machine.config) := by
  rw [State.receive_eq]
  apply Stays.of_input
  apply stays_onTape
  · exact ⟨hstate.ip_nonneg, hstate.ip_le, hstate.tape⟩
  · exact hrunning
  · exact hstate.tape.store_keeps state.input.next.1

/-- In range a jump follows the entry of the table, and it is refused if that is empty. -/
theorem jump_spec (hclosed : machine.program.Closed) (hstate : state.InRange machine)
    (hrunning : state.ip < machine.program.code.size) :
    (∃ target, machine.program.jumps[state.ip.toNat]? = some (some target) ∧
        (0 ≤ target ∧ target < machine.program.code.size) ∧
        machine.jump state = .done () { state with ip := target + 1 }) ∨
      machine.program.jumps[state.ip.toNat]? = some none ∧
        machine.jump state = .refused (.jump (.noTarget state.ip)) state := by
  have hip : ((state.ip.toNat : Nat) : Int) = state.ip := Int.toNat_of_nonneg hstate.ip_nonneg
  have hlt : state.ip.toNat < machine.program.jumps.size := by
    rw [hclosed.size_eq]
    omega
  rw [jump]
  cases hentry : machine.program.jumps[state.ip.toNat] with
  | none =>
      have hnone := (Array.getElem?_eq_getElem hlt).trans (congrArg some hentry)
      have htarget := machine.program.target_of_entry_none hnone
      rw [hip] at htarget
      rw [htarget]
      exact .inr ⟨hnone, rfl⟩
  | some target =>
      have hsome := (Array.getElem?_eq_getElem hlt).trans (congrArg some hentry)
      have htarget := machine.program.target_of_entry_some hsome
      rw [hip] at htarget
      rw [htarget]
      exact .inl ⟨target, hsome, hclosed.target_mem _ _ hsome, rfl⟩

theorem stays_jump (hclosed : machine.program.Closed) (hstate : state.InRange machine)
    (hrunning : state.ip < machine.program.code.size) {byte : UInt8}
    (hbracket : isBracket byte = true)
    (hbyte : machine.program.code.toList[state.ip.toNat]? = some byte) :
    machine.Stays state (machine.jump state) := by
  rcases jump_spec hclosed hstate hrunning with
    ⟨target, -, ⟨hnonneg, hinside⟩, hjump⟩ | ⟨hnone, hjump⟩
  · rw [hjump]
    exact ⟨Int.le_add_one hnonneg, hinside, hstate.tape⟩
  · rw [hjump]
    exact ⟨hstate, .noTarget hbracket hbyte hnone⟩

theorem stays_jumpIf (hclosed : machine.program.Closed) (hstate : state.InRange machine)
    (hrunning : state.ip < machine.program.code.size) {byte : UInt8}
    (hbracket : isBracket byte = true)
    (hbyte : machine.program.code.toList[state.ip.toNat]? = some byte) (condition : Nat → Bool) :
    machine.Stays state (machine.jumpIf condition state) := by
  rw [jumpIf, hstate.tape.read_eq]
  cases hcondition : condition state.tape.current with
  | true =>
      simp only [hcondition, if_true]
      exact stays_jump hclosed hstate hrunning hbracket hbyte
  | false =>
      simp only [hcondition, Bool.false_eq_true, if_false]
      exact stays_pass hstate hrunning

/-- In a loaded program a bracket leads behind its partner, or to the next position. -/
theorem jumpIf_of_partnered (hloaded : machine.program.Loaded)
    (hsound : state.tape.Sound machine.config) {position partner : Nat} (hip : state.ip = position)
    (hpartnered : Brackets.Partnered machine.program.code.toList position partner)
    (condition : Nat → Bool) :
    machine.jumpIf condition state = .done () { state with
      ip := ((if condition state.tape.current then partner + 1 else position + 1 : Nat) :
        Int) } := by
  rw [jumpIf, hsound.read_eq]
  cases hcondition : condition state.tape.current with
  | true =>
      simp only [hcondition, if_true]
      rw [jump, hip, hloaded.target_eq hpartnered]
      rfl
  | false =>
      simp only [hcondition, Bool.false_eq_true, if_false]
      rw [State.pass, hip]
      rfl

/-- In range there is a byte to execute. -/
theorem exists_fetch (hstate : state.InRange machine)
    (hrunning : state.ip < machine.program.code.size) :
    ∃ byte, machine.program.code.toList[state.ip.toNat]? = some byte ∧
      machine.program.fetch state.ip = .ok byte := by
  have hip : ((state.ip.toNat : Nat) : Int) = state.ip := Int.toNat_of_nonneg hstate.ip_nonneg
  have hlt : state.ip.toNat < machine.program.code.toList.length := by
    rw [Array.length_toList]
    omega
  have hbyte := List.getElem?_eq_getElem hlt
  have hfetch := machine.program.fetch_ofNat hbyte
  rw [hip] at hfetch
  exact ⟨_, hbyte, hfetch⟩

/-- Executing the byte at the present position leads from a state in range to one. -/
theorem stays_executeNext (hclosed : machine.program.Closed) (hstate : state.InRange machine)
    (hrunning : state.ip < machine.program.code.size) :
    machine.Stays state (machine.executeNext state) := by
  obtain ⟨byte, hbyte, hfetch⟩ := exists_fetch hstate hrunning
  rw [executeNext, hfetch]
  simp only [execute]
  cases hinstruction : Instruction.ofByte? byte with
  | none => exact stays_pass hstate hrunning
  | some instruction =>
      obtain rfl := Instruction.ofByte?_eq_some_iff.mp hinstruction
      cases instruction with
      | right => exact stays_onTape hstate hrunning hstate.tape.right_keeps
      | left => exact stays_onTape hstate hrunning hstate.tape.left_keeps
      | increment => exact stays_onTape hstate hrunning hstate.tape.increment_keeps
      | decrement => exact stays_onTape hstate hrunning hstate.tape.decrement_keeps
      | output => exact stays_emit hstate hrunning
      | input => exact stays_receive hstate hrunning
      | loopStart => exact stays_jumpIf hclosed hstate hrunning rfl hbyte _
      | loopEnd => exact stays_jumpIf hclosed hstate hrunning rfl hbyte _

theorem hasHalted_eq_false_iff :
    machine.hasHalted state = false ↔ state.ip < machine.program.code.size := by
  simp [hasHalted]

theorem initial_inRange (machine : Machine) (input : Input) (output : Sink) :
    (machine.initial input output).InRange machine where
  ip_nonneg := Int.le_refl 0
  ip_le := Int.natCast_nonneg _
  tape := Tape.blank_sound machine.config

/-- One step leads from a state in range to another one. -/
theorem step_inRange (hclosed : machine.program.Closed) (hstate : state.InRange machine)
    {next : State} (hrunning : machine.hasHalted state = false)
    (hstep : machine.step state = .done () next) : next.InRange machine := by
  have hstays := stays_executeNext hclosed hstate (hasHalted_eq_false_iff.mp hrunning)
  obtain ⟨executed, hexecuted, rfl⟩ := step_eq_done_iff.mp hstep
  rw [hexecuted] at hstays
  exact ⟨hstays.ip_nonneg, hstays.ip_le, hstays.tape⟩

theorem refused_inRange (hclosed : machine.program.Closed) (hstate : state.InRange machine)
    {reason : Failure} {after : State} (hrunning : machine.hasHalted state = false)
    (hstep : machine.step state = .refused reason after) :
    after.InRange machine ∧ machine.Refuses state reason := by
  have hstays := stays_executeNext hclosed hstate (hasHalted_eq_false_iff.mp hrunning)
  rw [step_eq_refused_iff.mp hstep] at hstays
  exact hstays

/-- Every state that is reached is in range. -/
theorem Reaches.inRange (hclosed : machine.program.Closed) {count : Nat} {last : State}
    (hreaches : machine.Reaches count state last) (hstate : state.InRange machine) :
    last.InRange machine := by
  induction hreaches with
  | refl => exact hstate
  | step hrunning hstep _ ih => exact ih (step_inRange hclosed hstate hrunning hstep)

theorem Reaches.failure_eq {count : Nat} {last : State}
    (hreaches : machine.Reaches count state last) :
    last.output.failure = state.output.failure := by
  induction hreaches with
  | refl => rfl
  | @step _ before _ _ _ hstep _ ih =>
      have hkept := machine.executeNext_kept before
      obtain ⟨executed, hexecuted, rfl⟩ := step_eq_done_iff.mp hstep
      rw [hexecuted] at hkept
      exact ih.trans hkept.failure

/-- A loaded program has a target for every bracket, so that only faults are left if the sink
does not fail. -/
theorem Refuses.exists_fault (hloaded : machine.program.Loaded)
    (hsink : state.output.failure = none) {reason : Failure}
    (hrefuses : machine.Refuses state reason) : ∃ fault, reason = .fault fault := by
  cases hrefuses with
  | fault found => exact ⟨found, rfl⟩
  | output error hfailing => exact absurd hsink hfailing
  | noTarget hbracket hbyte hnone =>
      rw [(hloaded.jumps.entry_eq_none_iff hloaded.balanced hbyte).mp hnone] at hbracket
      contradiction

end Machine

end TapeMachine
