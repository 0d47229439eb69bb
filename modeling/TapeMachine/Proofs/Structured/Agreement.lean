/-
# Runs and trees agree

The run of a loaded program is described by the tree of the program, without positions and jumps.
It halts with a tape, an output and a rest of the input if and only if the tree does, it meets a
fault if and only if the tree does, and it goes on for ever if and only if the tree has no outcome
at all. The machine counts as many steps as the tree costs: the bytes that took effect, one for
entering each loop, and one for each time that the body of a loop has come to its end.
-/

import TapeMachine.Proofs.Structured.Simulation

namespace TapeMachine

open Structured Node

theorem Machine.Ends.failed_steps {machine : Machine} {state last : State} {reason : Failure}
    (hends : machine.Ends state (.failed reason last)) : last.steps = state.steps := by
  cases hends with
  | failed _ hstep => exact refused_steps hstep

theorem State.initial_holds (machine : Machine) (input : List UInt8) :
    (machine.initial (.ofBytes input) (.empty none)).Holds machine 0
      (.blank machine.config.tapeSize input) where
  ip := rfl
  shows := ⟨⟨Array.toList_replicate, rfl⟩, rfl, rfl⟩
  inRange := machine.initial_inRange _ _
  sink := rfl

theorem State.Holds.ends {machine : Machine} {store : Store} {state : State}
    (hholds : state.Holds machine machine.program.code.size store) :
    machine.Ends state (.halted state) :=
  .halted (by rw [Machine.hasHalted, hholds.ip, decide_eq_true_eq])

/-- The tree of the program of a machine. -/
structure Machine.HasTree (machine : Machine) (nodes : List Node) : Prop where
  wellFormed : AllWellFormed nodes
  writeAll_eq : writeAll nodes = machine.program.code.toList

namespace Machine.HasTree

variable {machine : Machine} {nodes : List Node}

theorem located (htree : machine.HasTree nodes) :
    Located machine.program.code.toList 0 nodes := by
  rw [← htree.writeAll_eq]
  exact .whole htree.wellFormed

/-- An outcome of the tree is where the whole run leads. -/
theorem leads (htree : machine.HasTree nodes) (hloaded : machine.program.Loaded) {store : Store}
    {cost : Nat} {outcome : Outcome} (hexecutes : Executes machine.config nodes store cost outcome)
    {state : State} (hholds : state.Holds machine 0 store) :
    Leads machine state machine.program.code.size cost outcome := by
  apply leads_of_executes hloaded hexecutes htree.located .start hholds
  rw [Nat.zero_add, htree.writeAll_eq, Array.length_toList]

/-- A run that ends somewhere is led there by an outcome of the tree. -/
theorem exists_leads_of_ends (htree : machine.HasTree nodes) (hloaded : machine.program.Loaded)
    {store : Store} {state last : State} (hholds : state.Holds machine 0 store) {count : Nat}
    {progress : Progress} (hreaches : machine.Reaches count state last)
    (hends : machine.Ends last progress) :
    ∃ cost outcome, Executes machine.config nodes store cost outcome ∧
      Leads machine state machine.program.code.size cost outcome := by
  rcases keepsUp hloaded (count + 1) htree.located .start hholds with
    ⟨other, hother⟩ | ⟨cost, outcome, -, hexecutes⟩
  · have hlonger := hreaches.count_le_of_ends hends hother
    exact absurd hlonger (Nat.not_succ_le_self count)
  · exact ⟨cost, outcome, hexecutes, htree.leads hloaded hexecutes hholds⟩

end Machine.HasTree

namespace Interpreter

variable (program : Program) (config : Config) (input : List UInt8)

/-- The run halts after so many steps, and what it leaves behind is the store. -/
def Halts (steps : Nat) (store : Store) : Prop :=
  ∃ fuel final, (new program config (.ofBytes input) (.empty none)).run fuel =
      .done .halted final ∧
    final.state.Shows store ∧ final.state.steps = steps

/-- The run meets a fault of a kind after so many steps, and what it leaves behind is the store, to
whose current cell the fault points. -/
def Faults (steps : Nat) (kind : FaultKind) (store : Store) : Prop :=
  ∃ fuel fault final, (new program config (.ofBytes input) (.empty none)).run fuel =
      .refused (.failure (.fault fault)) final ∧
    fault.kind = kind ∧ fault.PointsAt store ∧ final.state.Shows store ∧
      final.state.steps = steps

/-- The run is never over. -/
def GoesOn : Prop :=
  ∀ fuel, ∃ final, (new program config (.ofBytes input) (.empty none)).run fuel =
    .done .unfinished final

variable {program config input}

theorem halts_iff (hcode : program.code.size ≠ 0) {steps : Nat} {store : Store} :
    Halts program config input steps store ↔
      ∃ last, Machine.Reaches ⟨program, config⟩ steps
          (Machine.initial ⟨program, config⟩ (.ofBytes input) (.empty none)) last ∧
        Machine.Ends ⟨program, config⟩ last (.halted last) ∧ last.Shows store := by
  constructor
  · rintro ⟨fuel, final, hrun, hshows, hsteps⟩
    obtain ⟨count, last, hreaches, hends, rfl⟩ :=
      (exists_run_new_halted_iff hcode).mp ⟨fuel, hrun⟩
    have hcount : count = steps := by
      rw [← hsteps, hreaches.steps_eq]
      exact (Nat.zero_add count).symm
    exact ⟨last, hcount ▸ hreaches, hends, ⟨hshows.tape, hshows.input, hshows.output⟩⟩
  · rintro ⟨last, hreaches, hends, hshows⟩
    obtain ⟨fuel, hrun⟩ :=
      (exists_run_new_halted_iff hcode).mpr ⟨steps, last, hreaches, hends, rfl⟩
    refine ⟨fuel, _, hrun, ⟨hshows.tape, hshows.input, hshows.output⟩, ?_⟩
    exact hreaches.steps_eq.trans (Nat.zero_add steps)

theorem faults_iff (hcode : program.code.size ≠ 0) {steps : Nat} {kind : FaultKind}
    {store : Store} :
    Faults program config input steps kind store ↔
      ∃ last fault after, Machine.Reaches ⟨program, config⟩ steps
          (Machine.initial ⟨program, config⟩ (.ofBytes input) (.empty none)) last ∧
        Machine.Ends ⟨program, config⟩ last (.failed (.fault fault) after) ∧
        fault.kind = kind ∧ fault.PointsAt store ∧ after.Shows store := by
  constructor
  · rintro ⟨fuel, fault, final, hrun, hkind, hpoints, hshows, hsteps⟩
    obtain ⟨count, before, found, after, hreaches, hends, rfl, rfl⟩ :=
      (exists_run_new_fault_iff hcode).mp ⟨fuel, hrun⟩
    have hcount : count = steps := by
      rw [← hsteps, hends.failed_steps, hreaches.steps_eq]
      exact (Nat.zero_add count).symm
    exact ⟨before, found, after, hcount ▸ hreaches, hends, hkind, ⟨hpoints.head, hpoints.cell⟩,
      ⟨hshows.tape, hshows.input, hshows.output⟩⟩
  · rintro ⟨last, fault, after, hreaches, hends, hkind, hpoints, hshows⟩
    obtain ⟨fuel, hrun⟩ :=
      (exists_run_new_fault_iff hcode).mpr ⟨steps, last, fault, after, hreaches, hends, rfl, rfl⟩
    refine ⟨fuel, _, _, hrun, hkind, ⟨hpoints.head, hpoints.cell⟩,
      ⟨hshows.tape, hshows.input, hshows.output⟩, ?_⟩
    exact hends.failed_steps.trans (hreaches.steps_eq.trans (Nat.zero_add steps))

variable {nodes : List Node}

theorem halts_iff_executes (hloaded : program.Loaded) (hcode : program.code.size ≠ 0)
    (htree : Machine.HasTree ⟨program, config⟩ nodes) {steps : Nat} {store : Store} :
    Halts program config input steps store ↔
      Executes config nodes (.blank config.tapeSize input) steps (.halted store) := by
  have hinitial := State.initial_holds ⟨program, config⟩ input
  rw [halts_iff hcode]
  constructor
  · rintro ⟨last, hreaches, hends, hshows⟩
    obtain ⟨cost, outcome, hexecutes, hleads⟩ :=
      htree.exists_leads_of_ends hloaded hinitial hreaches hends
    cases hleads with
    | halted hother hholds =>
        obtain ⟨rfl, rfl, -⟩ := hreaches.ends_unique hends hother hholds.ends
        rwa [hshows.unique hholds.shows]
    | faulted hother hfault _ _ =>
        obtain ⟨-, -, hdifferent⟩ := hreaches.ends_unique hends hother hfault
        contradiction
  · intro hexecutes
    cases htree.leads hloaded hexecutes hinitial with
    | halted hreaches hholds => exact ⟨_, hreaches, hholds.ends, hholds.shows⟩

theorem faults_iff_executes (hloaded : program.Loaded) (hcode : program.code.size ≠ 0)
    (htree : Machine.HasTree ⟨program, config⟩ nodes) {steps : Nat} {kind : FaultKind}
    {store : Store} :
    Faults program config input steps kind store ↔
      Executes config nodes (.blank config.tapeSize input) steps (.faulted kind store) := by
  have hinitial := State.initial_holds ⟨program, config⟩ input
  rw [faults_iff hcode]
  constructor
  · rintro ⟨last, fault, after, hreaches, hends, rfl, hpoints, hshows⟩
    obtain ⟨cost, outcome, hexecutes, hleads⟩ :=
      htree.exists_leads_of_ends hloaded hinitial hreaches hends
    cases hleads with
    | halted hother hholds =>
        obtain ⟨-, -, hdifferent⟩ := hreaches.ends_unique hends hother hholds.ends
        contradiction
    | faulted hother hfault hfound hleft =>
        obtain ⟨rfl, rfl, hsame⟩ := hreaches.ends_unique hends hother hfault
        obtain ⟨hreason, rfl⟩ := Progress.failed.inj hsame
        obtain rfl := Failure.fault.inj hreason
        rwa [hshows.unique hleft]
  · intro hexecutes
    cases htree.leads hloaded hexecutes hinitial with
    | faulted hreaches hends hpoints hshows =>
        exact ⟨_, _, _, hreaches, hends, rfl, hpoints, hshows⟩

theorem goesOn_iff_not_executes (hloaded : program.Loaded) (hcode : program.code.size ≠ 0)
    (htree : Machine.HasTree ⟨program, config⟩ nodes) :
    GoesOn program config input ↔
      ¬ ∃ steps outcome, Executes config nodes (.blank config.tapeSize input) steps outcome := by
  constructor
  · rintro hgoesOn ⟨steps, outcome, hexecutes⟩
    cases outcome with
    | halted store =>
        obtain ⟨fuel, final, hrun, -⟩ :=
          (halts_iff_executes hloaded hcode htree).mpr hexecutes
        obtain ⟨other, hother⟩ := hgoesOn fuel
        rw [hrun] at hother
        obtain ⟨hending, -⟩ := Attempt.done.inj hother
        contradiction
    | faulted kind store =>
        obtain ⟨fuel, fault, final, hrun, -⟩ :=
          (faults_iff_executes hloaded hcode htree).mpr hexecutes
        obtain ⟨other, hother⟩ := hgoesOn fuel
        rw [hrun] at hother
        contradiction
  · intro hnone fuel
    rw [run_new_eq hcode]
    rcases Machine.advance_spec ⟨program, config⟩ fuel _ with
      ⟨last, hadvance, -, -⟩ | ⟨count, last, hreaches, hends⟩
    · rw [hadvance]
      exact ⟨_, rfl⟩
    · obtain ⟨cost, outcome, hexecutes, -⟩ := htree.exists_leads_of_ends hloaded
        (State.initial_holds ⟨program, config⟩ input) hreaches hends
      exact absurd ⟨cost, outcome, hexecutes⟩ hnone

/-- A program that is loaded from bytes does what its tree does. The bytes have exactly one tree
without brackets in its leaves. On every input the run halts with a tape, an output and a rest of
the input after a number of steps if and only if the tree does at that cost; it meets a fault, at
a cell, if and only if the tree does; and it never ends if and only if the tree has no outcome. -/
theorem run_agrees_with_tree {code : List UInt8} {encoding : Encoding} {program : Program}
    (hload : Program.load (.bytes code) encoding = .ok program) (hcode : code ≠ [])
    (config : Config) (input : List UInt8) :
    ∃ nodes, AllWellFormed nodes ∧ writeAll nodes = code ∧
      (∀ other, AllWellFormed other → writeAll other = code → other = nodes) ∧
      (∀ steps store, Halts program config input steps store ↔
        Executes config nodes (.blank config.tapeSize input) steps (.halted store)) ∧
      (∀ steps kind store, Faults program config input steps kind store ↔
        Executes config nodes (.blank config.tapeSize input) steps (.faulted kind store)) ∧
      (GoesOn program config input ↔
        ¬ ∃ steps outcome, Executes config nodes (.blank config.tapeSize input) steps outcome) := by
  obtain ⟨hloaded, hencode⟩ := Program.loaded_of_load hload
  obtain rfl : code = program.code.toList := Except.ok.inj hencode
  obtain ⟨nodes, hnodes, hwrite⟩ := exists_writeAll_eq_of_balanced hloaded.balanced
  have hsize : program.code.size ≠ 0 := by
    rwa [← Array.length_toList, Ne, List.length_eq_zero_iff]
  have htree : Machine.HasTree ⟨program, config⟩ nodes := ⟨hnodes, hwrite⟩
  refine ⟨nodes, hnodes, hwrite, ?_, ?_, ?_, ?_⟩
  · intro other hother hsame
    exact writeAll_inj hother hnodes (hsame.trans hwrite.symm)
  · exact fun _ _ => halts_iff_executes hloaded hsize htree
  · exact fun _ _ _ => faults_iff_executes hloaded hsize htree
  · exact goesOn_iff_not_executes hloaded hsize htree

/-- A loop that counts one cell down from one halts after four steps: two bytes have taken effect,
the loop has been entered once, and its body has been executed once. -/
theorem run_agrees_with_tree_of_countdown :
    Program.load (.bytes [0x2B, 0x5B, 0x2D, 0x5D]) .utf8 =
        .ok ⟨#[0x2B, 0x5B, 0x2D, 0x5D], #[none, some 3, none, some 1]⟩ ∧
      Halts ⟨#[0x2B, 0x5B, 0x2D, 0x5D], #[none, some 3, none, some 1]⟩
        ⟨2, by decide, .eight, .wrap, .trap, .fault⟩ [0x41] 4 ⟨[0, 0], 0, [0x41], []⟩ := by
  have hload : Program.load (.bytes [0x2B, 0x5B, 0x2D, 0x5D]) .utf8 =
      .ok ⟨#[0x2B, 0x5B, 0x2D, 0x5D], #[none, some 3, none, some 1]⟩ := by cbv
  obtain ⟨nodes, -, -, hunique, hhalts, -⟩ := run_agrees_with_tree hload (by decide)
    ⟨2, by decide, .eight, .wrap, .trap, .fault⟩ [0x41]
  obtain rfl := hunique [.leaf 0x2B, .loop [.leaf 0x2D]] ⟨rfl, ⟨rfl, trivial⟩, trivial⟩ rfl
  refine ⟨hload, (hhalts 4 _).mpr ?_⟩
  exact .leaf rfl (.loopRound (by decide) (.leaf rfl .nil) (.loopExit rfl .nil))

end Interpreter

end TapeMachine
