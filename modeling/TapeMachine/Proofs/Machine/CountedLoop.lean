/-
# Counted loops

A loop without loops, input and output inside, that brings the head back and takes one from the
cell at which it starts, is a multiplication: it goes round as many times as that cell says, and
every time it adds the same amounts to the same cells. This needs cells that wrap, for the body may
take the counter and all the other cells past either end of their width and back again.

The tape is followed as the image of integers, on which nothing wraps. There the counter goes down
by one a round until it is zero, and the amounts add up to multiples.
-/

import TapeMachine.Proofs.Machine.Comments
import TapeMachine.Proofs.Tape.Drift

namespace TapeMachine

open Drift

/-- The state after so many steps that have led to a position and made a tape of the tape, and have
touched nothing else. -/
def State.after (state : State) (count position : Nat) (tape : Tape) : State :=
  { state with ip := position, tape, steps := state.steps + count }

theorem State.after_after (state : State) (first second middle position : Nat)
    (tape later : Tape) :
    (state.after first middle tape).after second position later =
      state.after (first + second) position later := by
  rw [after, after, after, Nat.add_assoc]

/-- Code that works on the tape has no brackets to be paired. -/
theorem balanced_of_worksOnTape {code : List UInt8}
    (hworks : ∀ byte ∈ code, worksOnTape byte = true) : Balanced code := by
  induction code with
  | nil => exact .nil
  | cons byte code ih =>
      refine .leaf ?_ (ih fun other hother => hworks other (List.mem_cons_of_mem _ hother))
      have hbyte := hworks byte (List.mem_cons_self ..)
      rcases eq_loopStart_or_eq_loopEnd_or_leaf byte with rfl | rfl | hleaf
      · contradiction
      · contradiction
      · exact hleaf

namespace Machine

/-- A run of so many steps whose instructions are all fetched from `low` to `high`. -/
structure RunsWithin (machine : Machine) (low high count : Nat) (state last : State) : Prop where
  reaches : machine.Reaches count state last
  fetched : ∀ earlier < count, ∀ between, machine.Reaches earlier state between →
    (low : Int) ≤ between.ip ∧ between.ip ≤ high

variable {machine : Machine} {low high position : Nat} {byte : UInt8} {state middle last : State}
  {integers : IntegerTape}

namespace RunsWithin

theorem refl (low high : Nat) (state : State) : machine.RunsWithin low high 0 state state where
  reaches := .refl
  fetched earlier hlt := absurd hlt (Nat.not_lt_zero earlier)

theorem trans {first second : Nat} (hfirst : machine.RunsWithin low high first state middle)
    (hsecond : machine.RunsWithin low high second middle last) :
    machine.RunsWithin low high (first + second) state last where
  reaches := hfirst.reaches.trans hsecond.reaches
  fetched earlier hlt between hbetween := by
    by_cases hshort : earlier < first
    · exact hfirst.fetched earlier hshort between hbetween
    · obtain ⟨further, rfl⟩ := Nat.exists_eq_add_of_le (Nat.le_of_not_lt hshort)
      exact hsecond.fetched further (by omega) between (hfirst.reaches.rest hbetween)

theorem one (hat : machine.At state position byte) (hlow : low ≤ position) (hhigh : position ≤ high)
    (hstep : machine.step state = .done () last) : machine.RunsWithin low high 1 state last where
  reaches := .one hat.hasHalted_eq_false hstep
  fetched earlier hlt between hbetween := by
    obtain rfl : earlier = 0 := by omega
    cases hbetween with
    | refl =>
        rw [hat.ip_eq]
        omega

end RunsWithin

/-- At either bracket of a loop one step leads into the body, or behind the loop if the current
cell is zero. -/
theorem runsWithin_of_bracket (hloaded : machine.program.Loaded) {opener closer entry : Nat}
    (hmatched : Brackets.Matched machine.program.code.toList opener closer)
    (hentry : entry = opener ∨ entry = closer) (hip : state.ip = entry)
    (hsound : state.tape.Sound machine.config) :
    machine.RunsWithin opener closer 1 state
      (state.after 1 (if state.tape.current = 0 then closer + 1 else opener + 1) state.tape) := by
  have hlt := hmatched.lt
  rcases hentry with rfl | rfl
  · have hat : machine.At state entry Instruction.loopStart.byte := ⟨hip, hmatched.opens⟩
    refine .one hat (Nat.le_refl _) (Nat.le_of_lt hlt) ?_
    have hjump := jumpIf_of_partnered hloaded hsound hip (.inl hmatched) (· = 0)
    simp only [decide_eq_true_eq] at hjump
    rw [step, hat.executeNext_eq, execute, Instruction.ofByte?_byte]
    simp only [hjump]
    rfl
  · have hat : machine.At state entry Instruction.loopEnd.byte := ⟨hip, hmatched.closes⟩
    refine .one hat (Nat.le_of_lt hlt) (Nat.le_refl _) ?_
    have hjump := jumpIf_of_partnered hloaded hsound hip (.inr hmatched) (· ≠ 0)
    simp only [decide_eq_true_eq, ite_not] at hjump
    rw [step, hat.executeNext_eq, execute, Instruction.ofByte?_byte]
    simp only [hjump]
    rfl

section Wrapping

variable (hoverflow : machine.config.overflow = .wrap)
  (hunderflow : machine.config.underflow = .wrap)

include hoverflow hunderflow

/-- A move that the integers make is a step of the machine. -/
theorem At.step_of_move (move : IntegerTape.Move) {next : IntegerTape}
    (hat : machine.At state position byte)
    (hexecute : machine.execute byte state = state.onTape (move.apply machine.config))
    (hwithin : integers.Within machine.config.tapeSize)
    (htape : state.tape = integers.reduce machine.config.width)
    (hmove : integers.move? move = some next) :
    machine.step state =
      .done () (state.after 1 (position + 1) (next.reduce machine.config.width)) := by
  have hreduces := IntegerTape.apply_reduces hoverflow hunderflow hwithin move
  rw [hmove, ← htape] at hreduces
  generalize happly : move.apply machine.config state.tape = attempt at hreduces
  cases hreduces with
  | done _ =>
      rw [step, hat.executeNext_eq, hexecute, State.onTape_of_done happly, State.after, hat.ip_eq]
      rfl

/-- A byte that works on the tape makes the integers drift, if the head stays on the tape. -/
theorem At.exists_step_of_tape (hat : machine.At state position byte)
    (hworks : worksOnTape byte = true) (hwithin : integers.Within machine.config.tapeSize)
    (htape : state.tape = integers.reduce machine.config.width)
    (hnonneg : 0 ≤ (integers.head : Int) + stride byte)
    (hlt : (integers.head : Int) + stride byte < machine.config.tapeSize) :
    ∃ next, integers.Drifts (stride byte) (atHead (amount byte)) next ∧
      machine.step state =
        .done () (state.after 1 (position + 1) (next.reduce machine.config.width)) := by
  have hlength := hwithin.length_eq
  cases hbyte : Instruction.ofByte? byte with
  | none =>
      refine ⟨integers, ?_, ?_⟩
      · have hdrifts := integers.drifts_withHead integers.head
        simpa [stride, amount, hbyte] using hdrifts
      · rw [hat.step_of_comment hbyte, State.after, ← htape, hat.ip_eq]
        rfl
  | some instruction =>
      obtain rfl := Instruction.ofByte?_eq_some_iff.mp hbyte
      cases instruction with
      | right =>
          simp only [stride, hbyte] at hlt
          refine ⟨{ integers with head := integers.head + 1 }, ?_, ?_⟩
          · have hdrifts := integers.drifts_withHead (integers.head + 1)
            simpa [stride, amount, hbyte] using hdrifts
          · apply hat.step_of_move hoverflow hunderflow .right rfl hwithin htape
            rw [IntegerTape.move?, if_pos (by omega)]
      | left =>
          simp only [stride, hbyte] at hnonneg
          obtain ⟨head, hhead⟩ := Nat.exists_eq_add_of_lt (show 0 < integers.head by omega)
          refine ⟨{ integers with head }, ?_, ?_⟩
          · have hdrifts := integers.drifts_withHead head
            simpa [stride, amount, hbyte, hhead] using hdrifts
          · apply hat.step_of_move hoverflow hunderflow .left rfl hwithin htape
            simp [IntegerTape.move?, hhead]
      | increment =>
          refine ⟨integers.change (· + 1), ?_, ?_⟩
          · simpa [stride, amount, hbyte] using integers.drifts_change 1
          · exact hat.step_of_move hoverflow hunderflow .increment rfl hwithin htape rfl
      | decrement =>
          refine ⟨integers.change (· + -1), ?_, ?_⟩
          · simpa [stride, amount, hbyte] using integers.drifts_change (-1)
          · exact hat.step_of_move hoverflow hunderflow .decrement rfl hwithin htape rfl
      | output | input | loopStart | loopEnd => contradiction

/-- Code that works on the tape makes the integers drift in as many steps as it has bytes, if
nowhere in it the head leaves the tape. -/
theorem exists_runsWithin_of_tape {before body rest : List UInt8}
    (hcode : machine.program.code.toList = before ++ (body ++ rest))
    (hworks : ∀ byte ∈ body, worksOnTape byte = true)
    (hwithin : integers.Within machine.config.tapeSize)
    (hstays : ∀ length ≤ body.length, 0 ≤ (integers.head : Int) + shift (body.take length) ∧
      (integers.head : Int) + shift (body.take length) < machine.config.tapeSize)
    (hip : state.ip = before.length) (htape : state.tape = integers.reduce machine.config.width)
    (hlow : low ≤ before.length) (hhigh : before.length + body.length ≤ high) :
    ∃ next, integers.Drifts (shift body) (Drift.change body) next ∧
      machine.RunsWithin low high body.length state
        (state.after body.length (before.length + body.length)
          (next.reduce machine.config.width)) := by
  induction body generalizing before integers state with
  | nil =>
      refine ⟨integers, integers.drifts_refl, ?_⟩
      · have hsame :
            state.after 0 before.length (integers.reduce machine.config.width) = state := by
          rw [State.after, ← htape, ← hip]
          rfl
        simpa [hsame] using RunsWithin.refl low high state
  | cons byte body ih =>
      have hat : machine.At state before.length byte := ⟨hip, by simp [hcode]⟩
      have hfirst := hstays 1 (Nat.succ_le_succ (Nat.zero_le _))
      simp only [List.take_succ_cons, List.take_zero, shift, Int.add_zero] at hfirst
      obtain ⟨middle, hdrifts, hstep⟩ := hat.exists_step_of_tape hoverflow hunderflow
        (hworks byte (List.mem_cons_self ..)) hwithin htape hfirst.1 hfirst.2
      have hlength : (before ++ [byte]).length = before.length + 1 := List.length_append
      rw [List.length_cons] at hhigh
      have hread : machine.program.code.toList = before ++ [byte] ++ (body ++ rest) := by
        simp [hcode]
      have hremains : ∀ length ≤ body.length,
          0 ≤ (middle.head : Int) + shift (body.take length) ∧
            (middle.head : Int) + shift (body.take length) < machine.config.tapeSize := by
        intro length hle
        have hcut := hstays (length + 1) (Nat.succ_le_succ hle)
        rwa [List.take_succ_cons, shift, ← Int.add_assoc, ← hdrifts.head_eq] at hcut
      have hnext : (state.after 1 (before.length + 1)
          (middle.reduce machine.config.width)).ip = (before ++ [byte]).length := by
        rw [hlength]
        rfl
      obtain ⟨next, hrest, hruns⟩ := ih hread
        (fun other hother => hworks other (List.mem_cons_of_mem _ hother))
        (hdrifts.within hwithin hfirst.2) hremains hnext rfl (by omega) (by omega)
      refine ⟨next, hdrifts.trans hrest, ?_⟩
      have hwhole := (RunsWithin.one hat hlow (by omega) hstep).trans hruns
      rw [State.after_after, hlength, Nat.add_comm 1, Nat.add_assoc, Nat.add_comm 1] at hwhole
      exact hwhole

section Loop

variable (hloaded : machine.program.Loaded) {before body after : List UInt8}
  (hcode : machine.program.code.toList =
    before ++ Instruction.loopStart.byte :: (body ++ Instruction.loopEnd.byte :: after))
  (hworks : ∀ byte ∈ body, worksOnTape byte = true)

include hloaded hcode hworks

/-- A round of a loop leads from either bracket through the body to the closing bracket. -/
theorem exists_runsWithin_of_round {entry : Nat}
    (hentry : entry = before.length ∨ entry = before.length + (body.length + 1))
    (hwithin : integers.Within machine.config.tapeSize)
    (hstays : ∀ length ≤ body.length, 0 ≤ (integers.head : Int) + shift (body.take length) ∧
      (integers.head : Int) + shift (body.take length) < machine.config.tapeSize)
    (hip : state.ip = entry) (htape : state.tape = integers.reduce machine.config.width)
    (hnonzero : state.tape.current ≠ 0) :
    ∃ next, integers.Drifts (shift body) (Drift.change body) next ∧
      machine.RunsWithin before.length (before.length + (body.length + 1)) (body.length + 1) state
        (state.after (body.length + 1) (before.length + (body.length + 1))
          (next.reduce machine.config.width)) := by
  have hmatched := Brackets.matched_append_loop before after (balanced_of_worksOnTape hworks)
  rw [← hcode] at hmatched
  have hbracket := runsWithin_of_bracket hloaded hmatched hentry hip
    (htape ▸ IntegerTape.reduce_sound hwithin)
  rw [if_neg hnonzero] at hbracket
  have hlength : (before ++ [Instruction.loopStart.byte]).length = before.length + 1 :=
    List.length_append
  have hinside : machine.program.code.toList =
      before ++ [Instruction.loopStart.byte] ++ (body ++ Instruction.loopEnd.byte :: after) := by
    simp [hcode]
  have hfirst : (state.after 1 (before.length + 1) state.tape).ip =
      (before ++ [Instruction.loopStart.byte]).length := by
    rw [hlength]
    rfl
  have hlow : before.length ≤ (before ++ [Instruction.loopStart.byte]).length := by omega
  have hhigh : (before ++ [Instruction.loopStart.byte]).length + body.length ≤
      before.length + (body.length + 1) := by omega
  obtain ⟨next, hdrifts, hbody⟩ := exists_runsWithin_of_tape hoverflow hunderflow hinside hworks
    hwithin hstays hfirst htape hlow hhigh
  refine ⟨next, hdrifts, ?_⟩
  have hround := hbracket.trans hbody
  rwa [State.after_after, hlength, Nat.add_assoc, Nat.add_comm 1 body.length] at hround

/-- A loop that takes one from its counter each time goes round as many times as the counter says.
It does not matter at which of its two brackets it is entered. -/
theorem exists_runsWithin_of_loop (hshift : shift body = 0) (hchange : Drift.change body 0 = -1)
    {rounds entry : Nat}
    (hentry : entry = before.length ∨ entry = before.length + (body.length + 1))
    (hwithin : integers.Within machine.config.tapeSize)
    (hstays : ∀ length ≤ body.length, 0 ≤ (integers.head : Int) + shift (body.take length) ∧
      (integers.head : Int) + shift (body.take length) < machine.config.tapeSize)
    (hrounds : integers.current = rounds) (hle : rounds ≤ machine.config.width.largest)
    (hip : state.ip = entry) (htape : state.tape = integers.reduce machine.config.width) :
    ∃ next, integers.Drifts 0 (fun offset => (rounds : Int) * Drift.change body offset) next ∧
      machine.RunsWithin before.length (before.length + (body.length + 1))
        (1 + rounds * (body.length + 1)) state
        (state.after (1 + rounds * (body.length + 1)) (before.length + (body.length + 1) + 1)
          (next.reduce machine.config.width)) := by
  induction rounds generalizing integers state entry with
  | zero =>
      have hmatched := Brackets.matched_append_loop before after (balanced_of_worksOnTape hworks)
      rw [← hcode] at hmatched
      have hbracket := runsWithin_of_bracket hloaded hmatched hentry hip
        (htape ▸ IntegerTape.reduce_sound hwithin)
      rw [htape, if_pos (IntegerTape.current_reduce_of_le hrounds hle)] at hbracket
      refine ⟨integers, by simpa using integers.drifts_refl, ?_⟩
      rwa [Nat.zero_mul]
  | succ rounds ih =>
      have hcurrent := IntegerTape.current_reduce_of_le hrounds hle
      rw [← htape] at hcurrent
      obtain ⟨middle, hdrifts, hround⟩ := exists_runsWithin_of_round hoverflow hunderflow hloaded
        hcode hworks hentry hwithin hstays hip htape (by omega)
      rw [hshift] at hdrifts
      have hhead : middle.head = integers.head := by
        have := hdrifts.head_eq
        omega
      have hstart := hstays 0 (Nat.zero_le _)
      rw [List.take_zero, shift] at hstart
      have hmiddle := hdrifts.within hwithin hstart.2
      have hleft : middle.current = rounds := by
        rw [hdrifts.current_eq hwithin, hrounds, hchange]
        omega
      have hclosing : (state.after (body.length + 1) (before.length + (body.length + 1))
          (middle.reduce machine.config.width)).ip =
            ((before.length + (body.length + 1) : Nat) : Int) := rfl
      obtain ⟨next, hmore, hrest⟩ := ih (.inr rfl) hmiddle (hhead ▸ hstays) hleft
        (Nat.le_of_succ_le hle) hclosing rfl
      have hcount : body.length + 1 + (1 + rounds * (body.length + 1)) =
          1 + (rounds + 1) * (body.length + 1) := by
        rw [Nat.succ_mul]
        omega
      refine ⟨next, hdrifts.succ hmore, ?_⟩
      have hwhole := hround.trans hrest
      rwa [State.after_after, hcount] at hwhole

end Loop

end Wrapping

/-- A loop of a loaded program whose body works on the tape, brings the head back and takes one from
the cell at which it starts, run under cells that wrap, from a state at its opening bracket in which
the body keeps the head on the tape. After one step and one more than the body has bytes for each
time that the counter says, and not before, the machine is behind the loop. The counter is zero, and
each cell has as many times the amount for its offset added, which leaves it as it is where that is
nothing. The head, the input, the output and the log are as they were. -/
theorem counted_loop_adds_multiples {source : Source} {encoding : Encoding} {program : Program}
    (hload : Program.load source encoding = .ok program) {before body after : List UInt8}
    (hcode : program.code.toList =
      before ++ Instruction.loopStart.byte :: (body ++ Instruction.loopEnd.byte :: after))
    (hworks : ∀ byte ∈ body, worksOnTape byte = true) (hshift : shift body = 0)
    (hchange : Drift.change body 0 = -1) {config : Config} (hoverflow : config.overflow = .wrap)
    (hunderflow : config.underflow = .wrap) {state : State} (hip : state.ip = before.length)
    (hsound : state.tape.Sound config)
    (hstays : ∀ length ≤ body.length, 0 ≤ state.tape.head + shift (body.take length) ∧
      state.tape.head + shift (body.take length) < config.tapeSize) :
    let rounds := state.tape.current
    let count := 1 + rounds * (body.length + 1)
    let closer := before.length + (body.length + 1)
    ∃ cells : Array Nat,
      Reaches ⟨program, config⟩ count state { state with
        ip := (closer : Int) + 1
        tape := ⟨cells, state.tape.head⟩
        steps := state.steps + count } ∧
      (∀ earlier < count, ∀ between, Reaches ⟨program, config⟩ earlier state between →
        before.length ≤ between.ip ∧ between.ip ≤ closer) ∧
      cells.size = config.tapeSize ∧
      ∀ (index cell : Nat), state.tape.cells[index]? = some cell →
        ∃ value : Nat, cells[index]? = some value ∧
          (value : Int) = ((cell : Int) + rounds * Drift.change body (index - state.tape.head)) %
            2 ^ config.width.bits ∧
          ((index : Int) = state.tape.head → value = 0) ∧
          (Drift.change body (index - state.tape.head) = 0 → value = cell) := by
  intro rounds count closer
  have hloaded := (Program.loaded_of_load hload).1
  let machine : Machine := ⟨program, config⟩
  have hwraps : machine.config.overflow = .wrap := hoverflow
  obtain ⟨next, hdrifts, hruns⟩ := exists_runsWithin_of_loop hwraps hunderflow hloaded hcode
    hworks hshift hchange (.inl rfl) hsound.integers_within
    (by rw [hsound.integers_head]; exact hstays) (Tape.current_integers state.tape)
    hsound.current_le hip hsound.reduce_integers.symm
  have hhead : (next.head : Int) = state.tape.head := by
    rw [hdrifts.head_eq, hsound.integers_head, Int.add_zero]
  have hlast : state.after count (closer + 1) (next.reduce config.width) = { state with
      ip := (closer : Int) + 1
      tape := ⟨(next.reduce config.width).cells, state.tape.head⟩
      steps := state.steps + count } := by
    rw [← hhead]
    rfl
  have hsize : (next.reduce config.width).cells.size = config.tapeSize := by
    rw [IntegerTape.reduce, List.size_toArray, List.length_map, hdrifts.length_eq]
    exact hsound.integers_within.length_eq
  refine ⟨_, hlast ▸ hruns.reaches, hruns.fetched, hsize, ?_⟩
  intro index cell hcell
  have hvalue := hdrifts.getElem?_reduce config.width index
  rw [Tape.getElem?_integers, hcell, hsound.integers_head] at hvalue
  refine ⟨_, hvalue, config.width.natCast_wrap _, ?_, ?_⟩
  · intro hcounter
    have hrounds : rounds = cell := by
      change state.tape.cells[state.tape.head.toNat]?.getD 0 = cell
      rw [← hcounter, Int.toNat_natCast, hcell]
      rfl
    have hzero : Int.ofNat cell + (rounds : Int) * -1 = 0 := by
      rw [hrounds, Int.mul_neg_one]
      exact Int.add_right_neg cell
    change config.width.wrap (Int.ofNat cell + (rounds : Int) *
      Drift.change body (index - state.tape.head)) = 0
    rw [hcounter, Int.sub_self, hchange, hzero]
    exact config.width.wrap_zero
  · intro hnothing
    change config.width.wrap (Int.ofNat cell + (rounds : Int) *
      Drift.change body (index - state.tape.head)) = cell
    rw [hnothing, Int.mul_zero, Int.add_zero]
    exact Width.wrap_of_le_largest (hsound.cell_le cell (Array.mem_of_getElem? hcell))

/-- Three rounds that each add two to a cell of eight bits. In the last of them the counter goes
below zero on the way, and the other cell past its largest value. -/
theorem counted_loop_adds_multiples_of_doubling :
    let program : Program := ⟨#[0x5B, 0x2D, 0x2D, 0x3E, 0x2B, 0x2B, 0x3C, 0x2B, 0x5D],
      #[some 8, none, none, none, none, none, none, none, some 0]⟩
    let config : Config := ⟨3, by decide, .eight, .wrap, .wrap, .zero⟩
    let state : State := ⟨0, ⟨#[3, 251, 7], 0⟩, 0, .empty, .empty none, #[]⟩
    Program.load (.bytes [0x5B, 0x2D, 0x2D, 0x3E, 0x2B, 0x2B, 0x3C, 0x2B, 0x5D]) .utf8 =
        .ok program ∧
      state.tape.Sound config ∧
      ∃ cells : Array Nat,
        Reaches ⟨program, config⟩ 25 state ⟨9, ⟨cells, 0⟩, 25, .empty, .empty none, #[]⟩ ∧
          cells[0]? = some 0 ∧ cells[1]? = some 1 ∧ cells[2]? = some 7 := by
  intro program config state
  have hload : Program.load (.bytes [0x5B, 0x2D, 0x2D, 0x3E, 0x2B, 0x2B, 0x3C, 0x2B, 0x5D])
      .utf8 = .ok program := by cbv
  have hsound : state.tape.Sound config := ⟨rfl, by decide, by decide, by decide⟩
  have hcode : program.code.toList = [] ++ Instruction.loopStart.byte ::
      ([0x2D, 0x2D, 0x3E, 0x2B, 0x2B, 0x3C, 0x2B] ++ Instruction.loopEnd.byte :: []) := rfl
  have hworks : ∀ byte ∈ [0x2D, 0x2D, 0x3E, 0x2B, 0x2B, 0x3C, 0x2B], worksOnTape byte = true :=
    List.all_eq_true.mp (by decide)
  obtain ⟨cells, hreaches, -, -, hcells⟩ := counted_loop_adds_multiples hload hcode hworks
    (by decide) (by decide) rfl rfl rfl hsound (by decide)
  obtain ⟨counter, hcounter, -, hzero, -⟩ := hcells 0 3 rfl
  obtain ⟨sum, hsum, hvalue, -⟩ := hcells 1 251 rfl
  obtain ⟨same, hsame, -, -, hkept⟩ := hcells 2 7 rfl
  obtain rfl := hzero rfl
  obtain rfl : sum = 1 := Int.ofNat.inj (hvalue.trans (by decide))
  obtain rfl := hkept (by decide)
  exact ⟨hload, hsound, cells, hreaches, hcounter, hsum, hsame⟩

end Machine

end TapeMachine
