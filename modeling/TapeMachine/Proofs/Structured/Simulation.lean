/-
# Trees and the machine

A loaded program does what its tree does. The two keep in step at the beginnings of nodes and, for
a loop, also at its closing bracket: there the machine tests the cell just as at the opening one
and has the same two places to go to, so that it does not matter from which of the two a loop is
executed. What the tree does at a cost, the machine does in as many steps.

For the converse the machine is watched for some number of steps. Either it takes all of them, or
the tree has come to an outcome at no greater cost.
-/

import TapeMachine.Proofs.Machine.Range
import TapeMachine.Proofs.Program.Tree
import TapeMachine.Proofs.Structured.Effect
import TapeMachine.Structured.Execution

namespace TapeMachine

open Structured Node

/-- A state at a position of the code that shows a store. -/
structure State.Holds (machine : Machine) (position : Nat) (store : Store) (state : State) :
    Prop where
  ip : state.ip = position
  shows : state.Shows store
  inRange : state.InRange machine
  sink : state.output.failure = none

variable {machine : Machine} {position : Nat} {store : Store} {state : State}

namespace State.Holds

theorem hasHalted_eq_false {byte : UInt8} (hholds : state.Holds machine position store)
    (hbyte : machine.program.code.toList[position]? = some byte) :
    machine.hasHalted state = false := by
  obtain ⟨hlt, -⟩ := List.getElem?_eq_some_iff.mp hbyte
  rw [Array.length_toList] at hlt
  rw [Machine.hasHalted_eq_false_iff, hholds.ip]
  exact Int.ofNat_lt.mpr hlt

theorem executeNext_eq {byte : UInt8} (hholds : state.Holds machine position store)
    (hbyte : machine.program.code.toList[position]? = some byte) :
    machine.executeNext state = machine.execute byte state := by
  rw [Machine.executeNext, hholds.ip, machine.program.fetch_ofNat hbyte]

/-- An instruction that is executed is a step to where it leads. -/
theorem exists_reaches_one (hloaded : machine.program.Loaded) {byte : UInt8}
    (hholds : state.Holds machine position store)
    (hbyte : machine.program.code.toList[position]? = some byte) {after : State} {target : Nat}
    {next : Store} (hexecute : machine.execute byte state = .done () after)
    (hip : after.ip = target) (hshows : after.Shows next) :
    ∃ stepped, machine.Reaches 1 state stepped ∧ stepped.Holds machine target next := by
  have hrunning := hholds.hasHalted_eq_false hbyte
  have hstep : machine.step state = .done () { after with steps := after.steps + 1 } :=
    Machine.step_eq_done_iff.mpr ⟨after, (hholds.executeNext_eq hbyte).trans hexecute, rfl⟩
  have hreaches := Machine.Reaches.one hrunning hstep
  exact ⟨_, hreaches, hip, ⟨hshows.tape, hshows.input, hshows.output⟩,
    hreaches.inRange hloaded.closed hholds.inRange, hreaches.failure_eq.trans hholds.sink⟩

theorem exists_reaches_of_effect (hloaded : machine.program.Loaded) {byte : UInt8}
    (hleaf : isBracket byte = false) (hholds : state.Holds machine position store)
    (hbyte : machine.program.code.toList[position]? = some byte) {next : Store}
    (heffect : store.effect machine.config byte = .ok next) :
    ∃ stepped, machine.Reaches 1 state stepped ∧ stepped.Holds machine (position + 1) next := by
  have hmirrors := hholds.shows.execute_mirrors hleaf hholds.inRange.tape hholds.sink
  generalize hexecute : machine.execute byte state = attempt at hmirrors
  rw [heffect] at hmirrors
  cases hmirrors with
  | done hip hshows =>
      exact hholds.exists_reaches_one hloaded hbyte hexecute
        (by rw [hip, hholds.ip, Int.natCast_add_one]) hshows

theorem exists_ends_of_effect {byte : UInt8} (hleaf : isBracket byte = false)
    (hholds : state.Holds machine position store)
    (hbyte : machine.program.code.toList[position]? = some byte) {kind : FaultKind}
    (heffect : store.effect machine.config byte = .error kind) :
    ∃ fault after, machine.Ends state (.failed (.fault fault) after) ∧ fault.kind = kind ∧
      fault.PointsAt store ∧ after.Shows store := by
  have hmirrors := hholds.shows.execute_mirrors hleaf hholds.inRange.tape hholds.sink
  have hexecuteNext := hholds.executeNext_eq hbyte
  generalize machine.execute byte state = attempt at hmirrors hexecuteNext
  rw [heffect] at hmirrors
  cases hmirrors with
  | refused hshows hpoints =>
      exact ⟨_, _, .failed (hholds.hasHalted_eq_false hbyte)
        (Machine.step_eq_refused_iff.mpr hexecuteNext), rfl, hpoints, hshows⟩

theorem jumpIf_eq (hloaded : machine.program.Loaded) (hholds : state.Holds machine position store)
    {partner : Nat} (hpartnered : Brackets.Partnered machine.program.code.toList position partner)
    (condition : Nat → Bool) :
    machine.jumpIf condition state =
      .done () { state with
        ip := ((if condition store.current then partner + 1 else position + 1 : Nat) : Int) } := by
  rw [← hholds.shows.tape.current_eq]
  exact Machine.jumpIf_of_partnered hloaded hholds.inRange.tape hholds.ip hpartnered condition

end State.Holds

/-- Where the execution of a sequence of nodes at a position can begin: there, or at the closing
bracket of a loop that the sequence begins with. -/
inductive Entry (position : Nat) : List Node → Nat → Prop
  | start {nodes : List Node} : Entry position nodes position
  | again {body nodes : List Node} :
      Entry position (.loop body :: nodes) (position + ((writeAll body).length + 1))

/-- At either bracket of a loop one step leads into the body, or behind the loop if the current
cell is zero. -/
theorem State.Holds.exists_reaches_of_loop (hloaded : machine.program.Loaded)
    {body nodes : List Node} {entry : Nat}
    (hlocated : Located machine.program.code.toList position (.loop body :: nodes))
    (hentry : Entry position (.loop body :: nodes) entry)
    (hholds : state.Holds machine entry store) :
    ∃ stepped, machine.Reaches 1 state stepped ∧
      stepped.Holds machine
        (if store.current = 0 then position + ((writeAll body).length + 1) + 1 else position + 1)
        store := by
  have hmatched := hlocated.loop_matched
  have hshows : ∀ ip : Int, ({ state with ip } : State).Shows store := fun _ =>
    ⟨hholds.shows.tape, hholds.shows.input, hholds.shows.output⟩
  cases hentry with
  | start =>
      refine hholds.exists_reaches_one hloaded hmatched.opens
        (hholds.jumpIf_eq hloaded (.inl hmatched) (· = 0)) ?_ (hshows _)
      simp only [decide_eq_true_eq]
  | again =>
      refine hholds.exists_reaches_one hloaded hmatched.closes
        (hholds.jumpIf_eq hloaded (.inr hmatched) (· ≠ 0)) ?_ (hshows _)
      simp only [decide_eq_true_eq, ite_not]

/-- So many steps lead from a state to an outcome: to a state at a position that shows the store,
or to one in which the next step is refused with the fault. -/
inductive Leads (machine : Machine) (state : State) (finish : Nat) : Nat → Outcome → Prop
  | halted {count : Nat} {last : State} {store : Store}
      (hreaches : machine.Reaches count state last) (hholds : last.Holds machine finish store) :
      Leads machine state finish count (.halted store)
  | faulted {count : Nat} {last after : State} {fault : Fault} {store : Store}
      (hreaches : machine.Reaches count state last)
      (hends : machine.Ends last (.failed (.fault fault) after)) (hpoints : fault.PointsAt store)
      (hshows : after.Shows store) :
      Leads machine state finish count (.faulted fault.kind store)

theorem Leads.after {count cost finish : Nat} {middle : State} {outcome : Outcome}
    (hleads : Leads machine middle finish cost outcome)
    (hreaches : machine.Reaches count state middle) :
    Leads machine state finish (count + cost) outcome := by
  cases hleads with
  | halted hrest hholds => exact .halted (hreaches.trans hrest) hholds
  | faulted hrest hends hpoints hshows =>
      exact .faulted (hreaches.trans hrest) hends hpoints hshows

theorem Leads.after_one {cost finish : Nat} {middle : State} {outcome : Outcome}
    (hleads : Leads machine middle finish cost outcome)
    (hreaches : machine.Reaches 1 state middle) :
    Leads machine state finish (cost + 1) outcome := by
  rw [Nat.add_comm]
  exact hleads.after hreaches

/-- The body of a loop ends at the closing bracket. -/
theorem Leads.of_body {body : List Node} {cost : Nat} {stepped : State} {outcome : Outcome}
    (hbody : Leads machine stepped (position + 1 + (writeAll body).length) cost outcome)
    (hreaches : machine.Reaches 1 state stepped) :
    Leads machine state (position + ((writeAll body).length + 1)) (cost + 1) outcome := by
  rw [Nat.add_assoc position, Nat.add_comm 1] at hbody
  exact hbody.after_one hreaches

/-- What the tree does at a cost, the machine does in as many steps. -/
theorem leads_of_executes (hloaded : machine.program.Loaded) {nodes : List Node} {cost : Nat}
    {outcome : Outcome} (hexecutes : Executes machine.config nodes store cost outcome)
    {entry finish : Nat} (hlocated : Located machine.program.code.toList position nodes)
    (hentry : Entry position nodes entry) (hholds : state.Holds machine entry store)
    (hfinish : finish = position + (writeAll nodes).length) :
    Leads machine state finish cost outcome := by
  induction hexecutes generalizing position entry finish state with
  | nil =>
      obtain rfl := hfinish
      cases hentry with
      | start => exact .halted .refl hholds
  | leaf heffect _ ih =>
      rw [length_writeAll_leaf_cons] at hfinish
      cases hentry with
      | start =>
          obtain ⟨stepped, hreaches, hstepped⟩ := hholds.exists_reaches_of_effect hloaded
            hlocated.wellFormed.1 hlocated.leaf_byte heffect
          have hrest : Leads machine stepped finish _ _ :=
            ih hlocated.leaf_rest .start hstepped (by omega)
          exact hrest.after_one hreaches
  | leafFault heffect =>
      cases hentry with
      | start =>
          obtain ⟨fault, after, hends, rfl, hpoints, hshows⟩ :=
            hholds.exists_ends_of_effect hlocated.wellFormed.1 hlocated.leaf_byte heffect
          exact .faulted .refl hends hpoints hshows
  | loopExit hzero _ ih =>
      rw [length_writeAll_loop_cons] at hfinish
      obtain ⟨stepped, hreaches, hstepped⟩ :=
        hholds.exists_reaches_of_loop hloaded hlocated hentry
      rw [if_pos hzero] at hstepped
      have hrest : Leads machine stepped finish _ _ :=
        ih hlocated.loop_rest .start hstepped (by omega)
      exact hrest.after_one hreaches
  | loopRound hnonzero _ _ ihbody ihrest =>
      obtain ⟨stepped, hreaches, hstepped⟩ :=
        hholds.exists_reaches_of_loop hloaded hlocated hentry
      rw [if_neg hnonzero] at hstepped
      -- The body ends at the closing bracket, from where the loop is executed once more.
      cases (ihbody hlocated.loop_body .start hstepped rfl).of_body hreaches with
      | halted hround hlast => exact (ihrest hlocated .again hlast hfinish).after hround
  | loopFault hnonzero _ ih =>
      obtain ⟨stepped, hreaches, hstepped⟩ :=
        hholds.exists_reaches_of_loop hloaded hlocated hentry
      rw [if_neg hnonzero] at hstepped
      cases (ih hlocated.loop_body .start hstepped rfl).of_body hreaches with
      | faulted hround hends hpoints hshows => exact .faulted hround hends hpoints hshows

/-- The tree keeps up with the machine for a number of steps: the machine takes them all, or the
tree has come to an outcome at no greater cost. -/
def KeepsUp (machine : Machine) (count : Nat) (state : State) (nodes : List Node)
    (store : Store) : Prop :=
  (∃ last, machine.Reaches count state last) ∨
    ∃ cost outcome, cost ≤ count ∧ Executes machine.config nodes store cost outcome

namespace KeepsUp

variable {count : Nat} {stepped : State} {nodes : List Node}

theorem of_executes {cost : Nat} {outcome : Outcome} (hle : cost ≤ count)
    (hexecutes : Executes machine.config nodes store cost outcome) :
    KeepsUp machine count state nodes store :=
  .inr ⟨cost, outcome, hle, hexecutes⟩

theorem leaf {byte : UInt8} {next : Store} (hreaches : machine.Reaches 1 state stepped)
    (heffect : store.effect machine.config byte = .ok next)
    (hrest : KeepsUp machine count stepped nodes next) :
    KeepsUp machine (count + 1) state (.leaf byte :: nodes) store := by
  rcases hrest with ⟨last, hlast⟩ | ⟨cost, outcome, hle, hexecutes⟩
  · exact .inl ⟨last, hlast.after_one hreaches⟩
  · exact of_executes (Nat.succ_le_succ hle) (.leaf heffect hexecutes)

variable {body : List Node}

theorem loopExit (hreaches : machine.Reaches 1 state stepped) (hzero : store.current = 0)
    (hrest : KeepsUp machine count stepped nodes store) :
    KeepsUp machine (count + 1) state (.loop body :: nodes) store := by
  rcases hrest with ⟨last, hlast⟩ | ⟨cost, outcome, hle, hexecutes⟩
  · exact .inl ⟨last, hlast.after_one hreaches⟩
  · exact of_executes (Nat.succ_le_succ hle) (.loopExit hzero hexecutes)

theorem loopRound {bodyCost : Nat} {next : Store}
    (hround : machine.Reaches (bodyCost + 1) state stepped) (hnonzero : store.current ≠ 0)
    (hbody : Executes machine.config body store bodyCost (.halted next))
    (hrest : KeepsUp machine count stepped (.loop body :: nodes) next) :
    KeepsUp machine (bodyCost + 1 + count) state (.loop body :: nodes) store := by
  rcases hrest with ⟨last, hlast⟩ | ⟨cost, outcome, hle, hexecutes⟩
  · exact .inl ⟨last, hround.trans hlast⟩
  · exact of_executes (Nat.add_le_add_left hle _) (.loopRound hnonzero hbody hexecutes)

end KeepsUp

/-- The tree keeps up with the machine for any number of steps. -/
theorem keepsUp (hloaded : machine.program.Loaded) (count : Nat) {nodes : List Node}
    {entry : Nat} (hlocated : Located machine.program.code.toList position nodes)
    (hentry : Entry position nodes entry) (hholds : state.Holds machine entry store) :
    KeepsUp machine count state nodes store := by
  induction count using Nat.strong_induction_on generalizing nodes position entry state store with
  | h count ih =>
      cases count with
      | zero => exact .inl ⟨state, .refl⟩
      | succ count =>
          have hlt : count < count + 1 := Nat.lt_succ_self count
          rcases nodes with - | ⟨byte | body, nodes⟩
          · exact .of_executes (Nat.zero_le _) .nil
          · cases hentry with
            | start =>
                have hleaf := hlocated.wellFormed.1
                cases heffect : store.effect machine.config byte with
                | error kind => exact .of_executes (Nat.zero_le _) (.leafFault heffect)
                | ok next =>
                    obtain ⟨stepped, hreaches, hstepped⟩ :=
                      hholds.exists_reaches_of_effect hloaded hleaf hlocated.leaf_byte heffect
                    exact .leaf hreaches heffect (ih count hlt hlocated.leaf_rest .start hstepped)
          · obtain ⟨stepped, hreaches, hstepped⟩ :=
              hholds.exists_reaches_of_loop hloaded hlocated hentry
            by_cases hzero : store.current = 0
            · rw [if_pos hzero] at hstepped
              exact .loopExit hreaches hzero (ih count hlt hlocated.loop_rest .start hstepped)
            · rw [if_neg hzero] at hstepped
              rcases ih count hlt hlocated.loop_body .start hstepped with
                ⟨last, hlast⟩ | ⟨bodyCost, outcome, hle, hbody⟩
              · exact .inl ⟨last, hlast.after_one hreaches⟩
              · have hleads :=
                  leads_of_executes hloaded hbody hlocated.loop_body .start hstepped rfl
                cases hleads.of_body hreaches with
                | faulted => exact .of_executes (Nat.succ_le_succ hle) (.loopFault hzero hbody)
                | halted hround hlast =>
                    -- The steps that the round has left over are for the further rounds.
                    obtain ⟨left, rfl⟩ := Nat.exists_eq_add_of_le hle
                    rw [Nat.add_right_comm]
                    exact .loopRound hround hzero hbody (ih left (by omega) hlocated .again hlast)

end TapeMachine
