/-
# Copying

The program `,[.,]` reads a byte and, as long as the cell is not zero, writes it and reads the next.
A byte fits a cell of any width and is written as it was read, so what is written is the input up to
its first zero byte. That byte ends the loop, and it cannot be told from the zero that the end of
the input leaves where it leaves one. Where it is a fault, the loop is left in the middle, with the
last byte still in the cell.

The run is followed from one test of the cell to the next. The head stays where it is, and nothing
is added or taken, so neither the length of the tape nor the two policies for full and zero cells
come in.
-/

import TapeMachine.Proofs.Machine.Comments
import TapeMachine.Proofs.Machine.Fetches

namespace TapeMachine

open Instruction

/-- The code that copies its input. -/
def copying : List UInt8 := [input.byte, loopStart.byte, output.byte, input.byte, loopEnd.byte]

/-- The loop of the copying code is its last four bytes. -/
theorem copying_matched : Brackets.Matched copying 1 4 :=
  Brackets.matched_append_loop [input.byte] [] (.leaf rfl (.leaf rfl .nil))

namespace Machine

/-- The state of a machine that copies: it is about to execute what stands at a position, has a
byte in its cell, has these bytes left to read and has written those. -/
structure Copying (machine : Machine) (position : Nat) (byte : UInt8)
    (unread written : List UInt8) (state : State) : Prop where
  ip_eq : state.ip = position
  sound : state.tape.Sound machine.config
  current_eq : state.tape.current = byte.toNat
  input_eq : state.input = .ofBytes unread
  output_eq : state.output.bytes.toList = written
  sink : state.output.failure = none

/-- A machine with the copying program. -/
structure Copies (machine : Machine) : Prop where
  loaded : machine.program.Loaded
  code_eq : machine.program.code.toList = copying

variable {machine : Machine} {position : Nat} {byte : UInt8} {unread written : List UInt8}
  {state : State}

/-- A machine that copies has halted behind the five bytes of its code. -/
theorem Copies.size_eq (hcopies : machine.Copies) : machine.program.code.size = 5 := by
  rw [← Array.length_toList, hcopies.code_eq]
  rfl

theorem initial_copying (machine : Machine) (input : List UInt8) :
    machine.Copying 0 0 input [] (machine.initial (.ofBytes input) (.empty none)) where
  ip_eq := rfl
  sound := Tape.blank_sound machine.config
  current_eq := Tape.blank_current machine.config.tapeSize
  input_eq := rfl
  output_eq := rfl
  sink := rfl

namespace Copying

variable (hcopies : machine.Copies) (hstate : machine.Copying position byte unread written state)

include hcopies hstate

theorem at_byte {code : UInt8} (hcode : copying[position]? = some code) :
    machine.At state position code where
  ip_eq := hstate.ip_eq
  byte_eq := hcopies.code_eq ▸ hcode

theorem hasHalted_iff : machine.hasHalted state = true ↔ 5 ≤ position := by
  rw [hasHalted, hcopies.size_eq, hstate.ip_eq, decide_eq_true_eq]
  exact Int.ofNat_le

/-- Executing the byte at the position is a step, which the state of copying does not count. -/
theorem exists_reaches_one {code : UInt8} {executed : State} {next : Nat} {stored : UInt8}
    {left put : List UInt8} (hcode : copying[position]? = some code)
    (hexecute : machine.execute code state = .done () executed)
    (hexecuted : machine.Copying next stored left put executed) :
    ∃ after, machine.Reaches 1 state after ∧ machine.Copying next stored left put after := by
  have hat := hstate.at_byte hcopies hcode
  refine ⟨{ executed with steps := executed.steps + 1 }, .one hat.hasHalted_eq_false ?_, ?_⟩
  · rw [step, hat.executeNext_eq, hexecute]
  · exact ⟨hexecuted.ip_eq, hexecuted.sound, hexecuted.current_eq, hexecuted.input_eq,
      hexecuted.output_eq, hexecuted.sink⟩

/-- Either bracket leads behind the loop if the cell is zero, and into it if it is not. -/
theorem exists_reaches_of_bracket (hbracket : position = 1 ∨ position = 4) :
    ∃ after, machine.Reaches 1 state after ∧
      machine.Copying (if byte = 0 then 5 else 2) byte unread written after := by
  have hzero : state.tape.current = 0 ↔ byte = 0 := by
    rw [hstate.current_eq, ← UInt8.toNat_inj]
    rfl
  have hjumped : ∀ target : Nat, machine.Copying target byte unread written
      { state with ip := target } := fun target =>
    ⟨rfl, hstate.sound, hstate.current_eq, hstate.input_eq, hstate.output_eq, hstate.sink⟩
  have hmatched := copying_matched
  rw [← hcopies.code_eq] at hmatched
  rcases hbracket with rfl | rfl
  · have hjump := jumpIf_of_partnered hcopies.loaded hstate.sound hstate.ip_eq (.inl hmatched)
      (· = 0)
    simp only [decide_eq_true_eq, hzero] at hjump
    exact hstate.exists_reaches_one hcopies rfl hjump (hjumped _)
  · have hjump := jumpIf_of_partnered hcopies.loaded hstate.sound hstate.ip_eq (.inr hmatched)
      (· ≠ 0)
    simp only [decide_eq_true_eq, ne_eq, hzero, ite_not] at hjump
    exact hstate.exists_reaches_one hcopies rfl hjump (hjumped _)

/-- What has been read, or the zero that the end of the input leaves, is in the cell. -/
theorem exists_reaches_of_stored {stored : UInt8}
    (hreads : copying[position]? = some input.byte)
    (hstore : State.store machine.config unread.head? state.tape =
      state.tape.write machine.config.width stored.toNat) :
    ∃ after, machine.Reaches 1 state after ∧
      machine.Copying (position + 1) stored (unread.drop 1) written after := by
  have hput : (state.tape.put stored.toNat).Sound machine.config := by
    have hle := machine.config.width.wrap_le_largest stored.toNat
    rw [Width.wrap_byte] at hle
    exact hstate.sound.put hle
  rw [hstate.sound.write_eq, Width.wrap_byte] at hstore
  have hexecute : state.receive machine.config = .done () { state with
      ip := state.ip + 1
      tape := state.tape.put stored.toNat
      input := .ofBytes (unread.drop 1) } := by
    rw [State.receive_eq, hstate.input_eq, Input.next_ofBytes]
    exact State.onTape_of_done hstore
  refine hstate.exists_reaches_one hcopies hreads hexecute ?_
  exact {
    ip_eq := congrArg (· + 1) hstate.ip_eq
    sound := hput
    current_eq := hstate.sound.current_put _
    input_eq := rfl
    output_eq := hstate.output_eq
    sink := hstate.sink }

end Copying

/-- The cell is written as the byte that it holds. -/
theorem Copying.exists_reaches_of_output (hcopies : machine.Copies)
    (hstate : machine.Copying 2 byte unread written state) :
    ∃ after, machine.Reaches 1 state after ∧
      machine.Copying 3 byte unread (written ++ [byte]) after := by
  have hbyte : state.byte? = some byte := by
    have hlt := byte.toNat_lt
    rw [State.byte?, hstate.current_eq, if_pos (by omega), UInt8.ofNat_toNat]
  have hexecute := State.emit_of_byte?_eq_some hstate.sound hbyte
  rw [State.onOutput_of_failure_eq_none byte hstate.sink] at hexecute
  refine hstate.exists_reaches_one hcopies rfl hexecute ?_
  exact {
    ip_eq := by
      rw [hstate.ip_eq]
      rfl
    sound := hstate.sound
    current_eq := hstate.current_eq
    input_eq := hstate.input_eq
    output_eq := by rw [Array.toList_push, hstate.output_eq]
    sink := hstate.sink }

theorem Copying.exists_reaches_of_input {next : UInt8} {rest : List UInt8}
    (hcopies : machine.Copies) (hstate : machine.Copying position byte (next :: rest) written state)
    (hreads : copying[position]? = some input.byte) :
    ∃ after, machine.Reaches 1 state after ∧
      machine.Copying (position + 1) next rest written after :=
  hstate.exists_reaches_of_stored hcopies hreads rfl

theorem Copying.exists_reaches_of_end (hcopies : machine.Copies)
    (hstate : machine.Copying position byte [] written state)
    (hreads : copying[position]? = some input.byte) (hatEnd : machine.config.atEnd = .zero) :
    ∃ after, machine.Reaches 1 state after ∧
      machine.Copying (position + 1) 0 [] written after := by
  apply hstate.exists_reaches_of_stored hcopies hreads
  simp only [State.store, List.head?_nil, hatEnd]
  rfl

/-- Where the end of the input is a fault, copying ends there. -/
theorem Copying.exists_ends (hcopies : machine.Copies)
    (hstate : machine.Copying position byte [] written state)
    (hreads : copying[position]? = some input.byte) (hatEnd : machine.config.atEnd = .fault) :
    ∃ fault after, machine.Ends state (.failed (.fault fault) after) ∧
      machine.Copying position byte [] written after ∧
        fault.kind = .inputExhausted ∧ fault.cell = some (byte.toNat : Int) := by
  have hat := hstate.at_byte hcopies hreads
  let fault := Fault.inputExhausted state.tape.head state.tape.current
  have hstore : State.store machine.config none state.tape =
      .refused (.fault fault) state.tape := by
    simp only [State.store, hatEnd]
    exact hstate.sound.refuse_eq _
  have hexecute : machine.execute input.byte state =
      .refused (.fault fault) { state with input := .ofBytes [] } := by
    change state.receive machine.config = _
    rw [State.receive_eq, hstate.input_eq]
    exact @State.onTape_of_refused _ { state with input := .ofBytes [] } _ _ hstore
  have hstep : machine.step state =
      .refused (.fault fault) { state with input := .ofBytes [] } := by
    rw [step_eq_refused_iff, hat.executeNext_eq, hexecute]
  refine ⟨fault, _, .failed hat.hasHalted_eq_false hstep, ?_, rfl, ?_⟩
  · exact ⟨hstate.ip_eq, hstate.sound, hstate.current_eq, rfl, hstate.output_eq, hstate.sink⟩
  · rw [← hstate.current_eq]
    rfl

/-- Where the copying of some input stops, when some bytes have been written before: behind the
loop, or at a `,` that finds no input, with a byte in the cell. -/
inductive Stopped (machine : Machine) (position : Nat) (byte : UInt8)
    (input written : List UInt8) (last : State) : Prop
  | behind {rest : List UInt8} (hzero : 0 ∈ input ∨ machine.config.atEnd = .zero)
      (hlast : machine.Copying 5 0 rest (written ++ input.takeWhile (· ≠ 0)) last)
  | exhausted (hzero : 0 ∉ input) (hatEnd : machine.config.atEnd = .fault)
      (hlast : machine.Copying position byte [] (written ++ input) last)

/-- What has been written of the input so far, if it is not zero, is the beginning of all that is
written of it. -/
theorem Stopped.cons {input : List UInt8} {first : UInt8} {last : State} (hfirst : first ≠ 0)
    (hstopped : machine.Stopped position byte input (written ++ [first]) last) :
    machine.Stopped position byte (first :: input) written last := by
  cases hstopped with
  | behind hzero hlast =>
      rw [← List.append_cons, ← List.takeWhile_cons_of_pos (by simpa using hfirst)] at hlast
      exact .behind (hzero.imp_left (List.mem_cons_of_mem first)) hlast
  | exhausted hzero hatEnd hlast =>
      rw [← List.append_cons] at hlast
      exact .exhausted (List.not_mem_cons_of_ne_of_not_mem hfirst.symm hzero) hatEnd hlast

/-- A zero in the cell ends the loop. -/
theorem Copying.exists_reaches_behind (hcopies : machine.Copies)
    (hstate : machine.Copying position 0 unread written state)
    (hbracket : position = 1 ∨ position = 4) :
    ∃ last, machine.Reaches 1 state last ∧ machine.Copying 5 0 unread written last := by
  have hjump := hstate.exists_reaches_of_bracket hcopies hbracket
  rwa [if_pos rfl] at hjump

/-- Any other byte in the cell is written. -/
theorem Copying.exists_reaches_written (hcopies : machine.Copies)
    (hstate : machine.Copying position byte unread written state)
    (hbracket : position = 1 ∨ position = 4) (hbyte : byte ≠ 0) :
    ∃ last, machine.Reaches 2 state last ∧
      machine.Copying 3 byte unread (written ++ [byte]) last := by
  obtain ⟨inside, hjump, hinside⟩ := hstate.exists_reaches_of_bracket hcopies hbracket
  rw [if_neg hbyte] at hinside
  obtain ⟨last, hwrite, hlast⟩ := hinside.exists_reaches_of_output hcopies
  exact ⟨last, hjump.trans hwrite, hlast⟩

/-- From a test of the cell on, the byte in it and those behind it are copied. -/
theorem Copying.exists_stopped (hcopies : machine.Copies)
    (hatEnd : machine.config.atEnd ≠ .keep)
    (hstate : machine.Copying position byte unread written state)
    (hbracket : position = 1 ∨ position = 4) :
    ∃ count last, machine.Reaches count state last ∧
      machine.Stopped 3 ((byte :: unread).getLast?.getD 0) (byte :: unread) written last := by
  induction unread generalizing position byte written state with
  | nil =>
      by_cases hbyte : byte = 0
      · subst hbyte
        obtain ⟨last, hreaches, hlast⟩ := hstate.exists_reaches_behind hcopies hbracket
        exact ⟨1, last, hreaches, .behind (.inl (List.mem_singleton_self 0)) (by simpa using hlast)⟩
      · obtain ⟨middle, hwritten, hmiddle⟩ := hstate.exists_reaches_written hcopies hbracket hbyte
        cases hpolicy : machine.config.atEnd with
        | zero =>
            -- The loop is not left yet: the zero of the end is tested as a byte of the input is.
            obtain ⟨again, hread, hagain⟩ := hmiddle.exists_reaches_of_end hcopies rfl hpolicy
            obtain ⟨last, hreaches, hlast⟩ := hagain.exists_reaches_behind hcopies (.inr rfl)
            exact ⟨_, last, (hwritten.trans hread).trans hreaches,
              .behind (.inr hpolicy) (by simpa [hbyte] using hlast)⟩
        | keep => exact absurd hpolicy hatEnd
        | fault =>
            have hnonzero : 0 ∉ [byte] := fun hmem => hbyte (List.mem_singleton.mp hmem).symm
            exact ⟨2, middle, hwritten, .exhausted hnonzero hpolicy hmiddle⟩
  | cons next rest ih =>
      by_cases hbyte : byte = 0
      · subst hbyte
        obtain ⟨last, hreaches, hlast⟩ := hstate.exists_reaches_behind hcopies hbracket
        exact ⟨1, last, hreaches, .behind (.inl (List.mem_cons_self ..)) (by simpa using hlast)⟩
      · obtain ⟨middle, hwritten, hmiddle⟩ := hstate.exists_reaches_written hcopies hbracket hbyte
        obtain ⟨again, hread, hagain⟩ := hmiddle.exists_reaches_of_input hcopies rfl
        obtain ⟨count, last, hreaches, hstopped⟩ := ih hagain (.inr rfl)
        refine ⟨_, last, (hwritten.trans hread).trans hreaches, ?_⟩
        rw [List.getLast?_cons_cons]
        exact hstopped.cons hbyte

/-- The whole input is copied. Whether the first `,` finds no input or the second depends on
whether there is any. -/
theorem Copies.exists_stopped (hcopies : machine.Copies) (hatEnd : machine.config.atEnd ≠ .keep)
    (input : List UInt8) :
    ∃ count last, machine.Reaches count (machine.initial (.ofBytes input) (.empty none)) last ∧
      machine.Stopped (if input = [] then 0 else 3) (input.getLast?.getD 0) input [] last := by
  have hinitial := initial_copying machine input
  cases input with
  | nil =>
      cases hpolicy : machine.config.atEnd with
      | zero =>
          obtain ⟨next, hread, hnext⟩ := hinitial.exists_reaches_of_end hcopies rfl hpolicy
          obtain ⟨last, hreaches, hlast⟩ := hnext.exists_reaches_behind hcopies (.inl rfl)
          exact ⟨_, last, hread.trans hreaches, .behind (.inr hpolicy) hlast⟩
      | keep => exact absurd hpolicy hatEnd
      | fault => exact ⟨0, _, .refl, .exhausted List.not_mem_nil hpolicy hinitial⟩
  | cons first rest =>
      obtain ⟨next, hread, hnext⟩ := hinitial.exists_reaches_of_input hcopies rfl
      obtain ⟨count, last, hreaches, hstopped⟩ := hnext.exists_stopped hcopies hatEnd (.inl rfl)
      exact ⟨_, last, hread.trans hreaches, hstopped⟩

end Machine

end TapeMachine
