/-
# Machines without comments

A machine and the one whose program is left without comments do the same to the tape, the input
and the output, and keep to corresponding positions. At a comment the first goes on by itself; at
an instruction both execute the same byte, and a jump leads both to corresponding positions, since
partners stay partners when the comments are deleted.

The relation is kept by every step of the first machine. Conversely, what the bare machine does
next, the other does once it has passed the comments in front of the instruction.
-/

import TapeMachine.Proofs.Machine.Lockstep
import TapeMachine.Proofs.Program.Comments

namespace TapeMachine

open Instruction

namespace Machine

/-- `bare` is the machine with the comments of its program deleted. -/
structure Strips (bare machine : Machine) : Prop where
  config_eq : bare.config = machine.config
  code_eq : bare.program.code.toList = withoutComments machine.program.code.toList
  loaded : machine.program.Loaded
  bare_loaded : bare.program.Loaded

/-- The machine is about to execute the byte at a position of its code. -/
structure At (machine : Machine) (state : State) (position : Nat) (byte : UInt8) : Prop where
  ip_eq : state.ip = position
  byte_eq : machine.program.code.toList[position]? = some byte

/-- Whether the byte about to be executed is a comment. -/
def atComment (machine : Machine) (state : State) : Bool :=
  match machine.program.fetch state.ip with
  | .ok byte => (ofByte? byte).isNone
  | .error _ => false

/-- How many comments the first steps of a run execute. -/
def comments (machine : Machine) (count : Nat) (state : State) : Nat :=
  (machine.visited count state).countP machine.atComment

variable {machine bare : Machine} {state other : State} {position : Nat} {byte : UInt8}

namespace At

theorem fetch_eq (hat : machine.At state position byte) :
    machine.program.fetch state.ip = .ok byte := by
  rw [hat.ip_eq, machine.program.fetch_ofNat hat.byte_eq]

theorem hasHalted_eq_false (hat : machine.At state position byte) :
    machine.hasHalted state = false := by
  have hlt := (List.getElem?_eq_some_iff.mp hat.byte_eq).choose
  rw [Array.length_toList] at hlt
  rw [hasHalted_eq_false_iff, hat.ip_eq]
  exact_mod_cast hlt

theorem atComment_eq (hat : machine.At state position byte) :
    machine.atComment state = (ofByte? byte).isNone := by
  rw [atComment, hat.fetch_eq]

theorem executeNext_eq (hat : machine.At state position byte) :
    machine.executeNext state = machine.execute byte state := by
  rw [executeNext, hat.fetch_eq]

/-- A comment is passed. -/
theorem step_of_comment (hat : machine.At state position byte) (hcomment : ofByte? byte = none) :
    machine.step state = .done () { state with ip := state.ip + 1, steps := state.steps + 1 } := by
  rw [step, hat.executeNext_eq, execute, hcomment]
  rfl

end At

theorem exists_at {position : Nat} (hip : state.ip = position)
    (hrunning : machine.hasHalted state = false) : ∃ byte, machine.At state position byte := by
  rw [hasHalted_eq_false_iff, hip] at hrunning
  have hlt : position < machine.program.code.toList.length := by
    rw [Array.length_toList]
    exact_mod_cast hrunning
  exact ⟨_, hip, List.getElem?_eq_getElem hlt⟩

/-- A step executes a comment or it does not. -/
theorem Reaches.comments_succ {count : Nat} {start last next : State}
    (hreaches : machine.Reaches count start last) (hrunning : machine.hasHalted last = false)
    (hstep : machine.step last = .done () next) :
    machine.comments (count + 1) start =
      machine.comments count start + if machine.atComment last then 1 else 0 := by
  rw [comments, hreaches.visited_add, visited_one hrunning hstep, List.countP_append,
    List.countP_singleton, comments]

/-- The position of an instruction and where it is once the comments are gone; a comment goes with
what stands behind it. -/
def Renumbers (code : List UInt8) (ip other : Int) : Prop :=
  ∃ position : Nat, ip = position ∧ other = rank code position

/-- The state of the bare machine that corresponds to one of the machine with comments. -/
def Counterpart (machine : Machine) : State → State → Prop :=
  State.Alongside (Renumbers machine.program.code.toList) (Tape.SoundWith machine.config Eq)

namespace Counterpart

theorem exists_position (hpart : machine.Counterpart state other) :
    ∃ position : Nat, state.ip = position ∧
      other.ip = rank machine.program.code.toList position := hpart.place

theorem other_ip_eq (hpart : machine.Counterpart state other) (hip : state.ip = position) :
    other.ip = rank machine.program.code.toList position := by
  obtain ⟨actual, hactual, hother⟩ := hpart.exists_position
  obtain rfl : actual = position := by exact_mod_cast hactual.symm.trans hip
  exact hother

/-- Passing a comment leads to the same state of the bare machine. -/
theorem pass (hpart : machine.Counterpart state other) (hat : machine.At state position byte)
    (hcomment : ofByte? byte = none) :
    machine.Counterpart { state with ip := state.ip + 1, steps := state.steps + 1 } other where
  place := by
    refine ⟨position + 1, congrArg (· + 1) hat.ip_eq, ?_⟩
    rw [rank_succ_of_none hat.byte_eq hcomment, hpart.other_ip_eq hat.ip_eq]
  tape := hpart.tape
  input := hpart.input
  output := hpart.output

end Counterpart

namespace Strips

theorem initial (hstrips : bare.Strips machine) (input : Input) (output : Sink) :
    machine.Counterpart (machine.initial input output) (bare.initial input output) where
  place := ⟨0, rfl, rfl⟩
  tape := by
    refine ⟨Tape.blank_sound machine.config, ?_⟩
    rw [Machine.initial, Machine.initial, hstrips.config_eq]
  input := rfl
  output := rfl

/-- The bare machine has halted where the other has: no instruction is left. -/
theorem hasHalted (hstrips : bare.Strips machine) (hpart : machine.Counterpart state other)
    (hhalted : machine.hasHalted state = true) : bare.hasHalted other = true := by
  obtain ⟨position, hip, hother⟩ := hpart.exists_position
  have hle : machine.program.code.toList.length ≤ position := by
    rw [Machine.hasHalted, hip, decide_eq_true_eq] at hhalted
    rw [Array.length_toList]
    exact_mod_cast hhalted
  rw [rank_of_length_le hle, ← hstrips.code_eq, Array.length_toList] at hother
  rw [Machine.hasHalted, hother, decide_eq_true_eq]

/-- At an instruction the bare machine is about to execute the same byte. -/
theorem at_rank (hstrips : bare.Strips machine) (hpart : machine.Counterpart state other)
    {instruction : Instruction} (hat : machine.At state position instruction.byte) :
    bare.At other (rank machine.program.code.toList position) instruction.byte where
  ip_eq := hpart.other_ip_eq hat.ip_eq
  byte_eq := by
    rw [hstrips.code_eq]
    exact getElem?_rank hat.byte_eq (ofByte?_byte instruction)

theorem jump_alike (hstrips : bare.Strips machine) (hpart : machine.Counterpart state other)
    (hat : machine.At state position byte) (hbracket : isBracket byte = true) :
    Attempt.Alike (Failure.OfKind fun _ => False) machine.Counterpart (machine.jump state)
      (bare.jump other) := by
  obtain ⟨partner, hpartnered⟩ :=
    Brackets.exists_partnered_of_balanced hstrips.loaded.balanced hat.byte_eq hbracket
  have hbare := hpartnered.rank
  rw [← hstrips.code_eq] at hbare
  obtain ⟨bracket, hpartner⟩ := hpartnered.exists_byte
  rw [jump, jump, hat.ip_eq, hpart.other_ip_eq hat.ip_eq, hstrips.loaded.target_eq hpartnered,
    hstrips.bare_loaded.target_eq hbare]
  -- Behind the partner there may be a comment in the one program and an instruction in the other:
  -- it is the rank that both have in common.
  refine .done ⟨⟨partner + 1, rfl, ?_⟩, hpart.tape, hpart.input, hpart.output⟩
  rw [rank_succ_of_some hpartner (ofByte?_byte bracket)]
  rfl

/-- At an instruction both machines take alike steps. -/
theorem step_alike (hstrips : bare.Strips machine) (hpart : machine.Counterpart state other)
    {instruction : Instruction} (hat : machine.At state position instruction.byte) :
    Attempt.Alike (Failure.OfKind fun _ => False) machine.Counterpart (machine.step state)
      (bare.step other) := by
  have hother := hstrips.at_rank hpart hat
  have hconfig : machine.config.Alike bare.config (fun _ => False) Eq := by
    rw [hstrips.config_eq]
    exact machine.config.alike_self _
  have hpass : Renumbers machine.program.code.toList (state.ip + 1) (other.ip + 1) := by
    refine ⟨position + 1, congrArg (· + 1) hat.ip_eq, ?_⟩
    rw [rank_succ_of_some hat.byte_eq (ofByte?_byte instruction), hother.ip_eq]
    rfl
  apply Machine.step_alike
  rw [hat.executeNext_eq, hother.executeNext_eq]
  exact execute_alike hconfig hpart hpass fun hbracket => hstrips.jump_alike hpart hat hbracket

/-- A fault at an instruction is told alike, but for the position. -/
theorem locate_eq (hstrips : bare.Strips machine) (hpart : machine.Counterpart state other)
    {instruction : Instruction} (hat : machine.At state position instruction.byte)
    (found : Fault) :
    bare.locate found other.ip =
      { machine.locate found state.ip with
        ip := rank machine.program.code.toList position } := by
  have hother := hstrips.at_rank hpart hat
  rw [locate, locate, hat.fetch_eq, hother.fetch_eq, hother.ip_eq]

/-- If instructions are left without the comments, there is code with them. -/
theorem size_ne_zero (hstrips : bare.Strips machine) (hsome : bare.program.code.size ≠ 0) :
    machine.program.code.size ≠ 0 := by
  intro hzero
  have hempty : machine.program.code.toList = [] := by simpa using hzero
  have hcode := hstrips.code_eq
  rw [hempty, withoutComments_nil] at hcode
  exact hsome (by simpa using hcode)

end Strips

/-- The machine has come to `last` and the bare one to the state that corresponds to it. It has
taken as many steps more as it has executed comments. -/
structure Level (machine bare : Machine) (start begin : State) (count bareCount : Nat)
    (last reached : State) : Prop where
  reaches : machine.Reaches count start last
  bare_reaches : bare.Reaches bareCount begin reached
  counterpart : machine.Counterpart last reached
  count_eq : count = bareCount + machine.comments count start

namespace Level

variable {start begin last reached : State} {count bareCount : Nat}

theorem initial (hpart : machine.Counterpart start begin) :
    Level machine bare start begin 0 0 start begin :=
  ⟨.refl, .refl, hpart, rfl⟩

theorem pass (hlevel : Level machine bare start begin count bareCount last reached)
    (hat : machine.At last position byte) (hcomment : ofByte? byte = none) :
    Level machine bare start begin (count + 1) bareCount
      { last with ip := last.ip + 1, steps := last.steps + 1 } reached where
  reaches := hlevel.reaches.trans (.one hat.hasHalted_eq_false (hat.step_of_comment hcomment))
  bare_reaches := hlevel.bare_reaches
  counterpart := hlevel.counterpart.pass hat hcomment
  count_eq := by
    have hcount := hlevel.count_eq
    rw [hlevel.reaches.comments_succ hat.hasHalted_eq_false (hat.step_of_comment hcomment),
      hat.atComment_eq, hcomment, Option.isNone_none, if_pos rfl]
    omega

theorem execute (hlevel : Level machine bare start begin count bareCount last reached)
    {instruction : Instruction} (hat : machine.At last position instruction.byte)
    {next after : State} (hstep : machine.step last = .done () next)
    (hrunning : bare.hasHalted reached = false) (hother : bare.step reached = .done () after)
    (hpart : machine.Counterpart next after) :
    Level machine bare start begin (count + 1) (bareCount + 1) next after where
  reaches := hlevel.reaches.trans (.one hat.hasHalted_eq_false hstep)
  bare_reaches := hlevel.bare_reaches.trans (.one hrunning hother)
  counterpart := hpart
  count_eq := by
    have hcount := hlevel.count_eq
    rw [hlevel.reaches.comments_succ hat.hasHalted_eq_false hstep, hat.atComment_eq,
      ofByte?_byte, Option.isNone_some, if_neg Bool.false_ne_true]
    omega

/-- Whatever step the machine takes, the bare one keeps level. -/
theorem next (hstrips : bare.Strips machine)
    (hlevel : Level machine bare start begin count bareCount last reached)
    (hrunning : machine.hasHalted last = false) {next : State}
    (hstep : machine.step last = .done () next) :
    ∃ bareCount after, Level machine bare start begin (count + 1) bareCount next after := by
  obtain ⟨position, hip, -⟩ := hlevel.counterpart.exists_position
  obtain ⟨byte, hat⟩ := exists_at hip hrunning
  cases hbyte : ofByte? byte with
  | none =>
      rw [hat.step_of_comment hbyte] at hstep
      obtain ⟨-, rfl⟩ := Attempt.done.inj hstep
      exact ⟨bareCount, reached, hlevel.pass hat hbyte⟩
  | some instruction =>
      obtain rfl := ofByte?_eq_some_iff.mp hbyte
      have halike := hstrips.step_alike hlevel.counterpart hat
      rw [hstep] at halike
      obtain ⟨after, hother, hpart⟩ := halike.exists_of_done
      have hgoing := (hstrips.at_rank hlevel.counterpart hat).hasHalted_eq_false
      exact ⟨bareCount + 1, after, hlevel.execute hat hstep hgoing hother hpart⟩

theorem follow (hstrips : bare.Strips machine) {more : Nat} {final : State}
    (hreaches : machine.Reaches more last final)
    (hlevel : Level machine bare start begin count bareCount last reached) :
    ∃ bareCount after, Level machine bare start begin (count + more) bareCount final after := by
  induction hreaches generalizing count bareCount reached with
  | refl => exact ⟨bareCount, reached, hlevel⟩
  | @step more _ _ _ hrunning hstep _ ih =>
      obtain ⟨_, _, hnext⟩ := hlevel.next hstrips hrunning hstep
      obtain ⟨bareCount, after, hfinal⟩ := ih hnext
      exact ⟨bareCount, after, by rwa [Nat.add_assoc, Nat.add_comm 1] at hfinal⟩

/-- Comments are passed until an instruction is reached or the end of the code. There are at most
`left` bytes to go. -/
theorem skip_within (left : Nat)
    (hlevel : Level machine bare start begin count bareCount last reached)
    (hip : last.ip = position) (hleft : machine.program.code.size ≤ position + left) :
    ∃ count last, Level machine bare start begin count bareCount last reached ∧
      (machine.hasHalted last = true ∨
        ∃ (position : Nat) (instruction : Instruction),
          machine.At last position instruction.byte) := by
  induction left generalizing count last position with
  | zero =>
      refine ⟨count, last, hlevel, .inl ?_⟩
      rw [hasHalted, hip, decide_eq_true_eq]
      exact_mod_cast hleft
  | succ left ih =>
      cases hhalted : machine.hasHalted last with
      | true => exact ⟨count, last, hlevel, .inl hhalted⟩
      | false =>
          obtain ⟨byte, hat⟩ := exists_at hip hhalted
          cases hbyte : ofByte? byte with
          | none =>
              have hbehind : last.ip + 1 = ((position + 1 : Nat) : Int) := congrArg (· + 1) hip
              exact ih (hlevel.pass hat hbyte) hbehind (by omega)
          | some instruction =>
              obtain rfl := ofByte?_eq_some_iff.mp hbyte
              exact ⟨count, last, hlevel, .inr ⟨position, instruction, hat⟩⟩

theorem skip (hlevel : Level machine bare start begin count bareCount last reached) :
    ∃ count last, Level machine bare start begin count bareCount last reached ∧
      (machine.hasHalted last = true ∨
        ∃ (position : Nat) (instruction : Instruction),
          machine.At last position instruction.byte) := by
  obtain ⟨position, hip, -⟩ := hlevel.counterpart.exists_position
  exact hlevel.skip_within machine.program.code.size hip (Nat.le_add_left _ _)

/-- Where the bare machine goes on, the other comes to the instruction that is executed. -/
theorem exists_at_instruction (hstrips : bare.Strips machine)
    (hlevel : Level machine bare start begin count bareCount last reached)
    (hrunning : bare.hasHalted reached = false) :
    ∃ count last, Level machine bare start begin count bareCount last reached ∧
      ∃ (position : Nat) (instruction : Instruction),
        machine.At last position instruction.byte := by
  obtain ⟨count, last, hlast, hhalted | hat⟩ := hlevel.skip
  · rw [hstrips.hasHalted hlast.counterpart hhalted] at hrunning
    contradiction
  · exact ⟨count, last, hlast, hat⟩

/-- Where the bare machine has halted, the other comes to the end of its code. -/
theorem exists_halted (hstrips : bare.Strips machine)
    (hlevel : Level machine bare start begin count bareCount last reached)
    (hhalted : bare.hasHalted reached = true) :
    ∃ count last, Level machine bare start begin count bareCount last reached ∧
      machine.hasHalted last = true := by
  obtain ⟨count, last, hlast, hend | ⟨position, instruction, hat⟩⟩ := hlevel.skip
  · exact ⟨count, last, hlast, hend⟩
  · rw [(hstrips.at_rank hlast.counterpart hat).hasHalted_eq_false] at hhalted
    contradiction

/-- Whatever steps the bare machine takes, the other comes level. -/
theorem lead (hstrips : bare.Strips machine) {more : Nat} {final : State}
    (hreaches : bare.Reaches more reached final)
    (hlevel : Level machine bare start begin count bareCount last reached) :
    ∃ count last, Level machine bare start begin count (bareCount + more) last final := by
  induction hreaches generalizing count bareCount last with
  | refl => exact ⟨count, last, hlevel⟩
  | @step more _ _ _ hrunning hstep _ ih =>
      obtain ⟨_, _, hlast, position, instruction, hat⟩ :=
        hlevel.exists_at_instruction hstrips hrunning
      have halike := (hstrips.step_alike hlast.counterpart hat).symm Failure.not_ofKind_false
      rw [hstep] at halike
      obtain ⟨_, hother, hpart⟩ := halike.exists_of_done
      obtain ⟨count, last, hfinal⟩ := ih (hlast.execute hat hother hrunning hstep hpart)
      exact ⟨count, last, by rwa [Nat.add_assoc, Nat.add_comm 1] at hfinal⟩

/-- A step that is refused is at an instruction, and the bare machine refuses it as well. -/
theorem refused (hstrips : bare.Strips machine)
    (hlevel : Level machine bare start begin count bareCount last reached)
    (hrunning : machine.hasHalted last = false) {reason : Failure} {after : State}
    (hstep : machine.step last = .refused reason after) :
    ∃ (position : Nat) (instruction : Instruction) (behind : State),
      machine.At last position instruction.byte ∧
        bare.step reached = .refused reason behind := by
  obtain ⟨position, hip, -⟩ := hlevel.counterpart.exists_position
  obtain ⟨byte, hat⟩ := exists_at hip hrunning
  cases hbyte : ofByte? byte with
  | none =>
      rw [hat.step_of_comment hbyte] at hstep
      contradiction
  | some instruction =>
      obtain rfl := ofByte?_eq_some_iff.mp hbyte
      have halike := hstrips.step_alike hlevel.counterpart hat
      rw [hstep] at halike
      obtain ⟨behind, hother, -⟩ := halike.exists_of_refused (Failure.not_ofKind_false reason)
      exact ⟨position, instruction, behind, hat, hother⟩

/-- Where the bare machine refuses a step, the other comes to the instruction and refuses it. -/
theorem exists_refused (hstrips : bare.Strips machine)
    (hlevel : Level machine bare start begin count bareCount last reached)
    (hrunning : bare.hasHalted reached = false) {reason : Failure} {behind : State}
    (hstep : bare.step reached = .refused reason behind) :
    ∃ count last, Level machine bare start begin count bareCount last reached ∧
      ∃ (position : Nat) (instruction : Instruction) (after : State),
        machine.At last position instruction.byte ∧
          machine.step last = .refused reason after := by
  obtain ⟨count, last, hlast, position, instruction, hat⟩ :=
    hlevel.exists_at_instruction hstrips hrunning
  have halike := (hstrips.step_alike hlast.counterpart hat).symm Failure.not_ofKind_false
  rw [hstep] at halike
  obtain ⟨after, hother, -⟩ := halike.exists_of_refused (Failure.not_ofKind_false reason)
  exact ⟨count, last, hlast, position, instruction, after, hat, hother⟩

end Level

theorem Strips.exists_level (hstrips : bare.Strips machine) {input : Input} {output : Sink}
    {count : Nat} {last : State}
    (hreaches : machine.Reaches count (machine.initial input output) last) :
    ∃ bareCount reached, Level machine bare (machine.initial input output)
      (bare.initial input output) count bareCount last reached := by
  have hlevel := (Level.initial (hstrips.initial input output)).follow hstrips hreaches
  rwa [Nat.zero_add] at hlevel

theorem Strips.exists_level_of_bare (hstrips : bare.Strips machine) {input : Input}
    {output : Sink} {bareCount : Nat} {reached : State}
    (hreaches : bare.Reaches bareCount (bare.initial input output) reached) :
    ∃ count last, Level machine bare (machine.initial input output)
      (bare.initial input output) count bareCount last reached := by
  have hlevel := (Level.initial (hstrips.initial input output)).lead hstrips hreaches
  rwa [Nat.zero_add] at hlevel

end Machine

end TapeMachine
