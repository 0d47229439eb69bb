/-
# Answers of loaded programs

What the run of a loaded program answers is known from the states that its machine reaches: it has
taken all of its steps, or it has come to a state in which the machine halts or the next
instruction meets a fault. There is no other answer as long as the sink takes every byte.
-/

import TapeMachine.Proofs.Interpreter.Safety

namespace TapeMachine

namespace Interpreter

/-- What a run answers that has been given so many steps, and the state from which it does. -/
inductive Answers (machine : Machine) (start : State) (fuel : Nat) :
    Attempt RunError Interpreter Ending → Prop
  | unfinished {last : State} (hreaches : machine.Reaches fuel start last)
      (hrunning : machine.hasHalted last = false) :
      Answers machine start fuel (.done .unfinished ⟨machine, last, true⟩)
  | halted {count : Nat} {last : State} (hreaches : machine.Reaches count start last)
      (hhalted : machine.hasHalted last = true) :
      Answers machine start fuel
        (.done .halted ⟨machine, { last with log := last.log.push (.halted last.steps) }, true⟩)
  | faulted {count : Nat} {last after : State} {found fault : Fault}
      (hreaches : machine.Reaches count start last) (hrunning : machine.hasHalted last = false)
      (hstep : machine.step last = .refused (.fault found) after)
      (hfault : fault = machine.locate found after.ip) :
      Answers machine start fuel (.refused (.failure (.fault fault))
        ⟨machine, { after with log := after.log.push (.faulted fault) }, true⟩)

variable {program : Program} {config : Config} {input : Input} {output : Sink}

theorem run_new_answers (hloaded : program.Loaded) (hcode : program.code.size ≠ 0)
    (hsink : output.failure = none) (fuel : Nat) :
    Answers ⟨program, config⟩ (Machine.initial ⟨program, config⟩ input output) fuel
      ((new program config input output).run fuel) := by
  rw [run_new_eq hcode]
  rcases Machine.advance_spec ⟨program, config⟩ fuel _ with
    ⟨last, hadvance, hreaches, hrunning⟩ | ⟨count, last, hreaches, hends⟩
  · rw [hadvance]
    exact .unfinished hreaches hrunning
  · have hstate := hreaches.inRange hloaded.closed (Machine.initial_inRange _ input output)
    have hfailure := hreaches.failure_eq.trans hsink
    generalize Machine.advance ⟨program, config⟩ fuel _ = progress at hends
    cases hends with
    | halted hhalted => exact .halted hreaches hhalted
    | failed hrunning hstep =>
        obtain ⟨-, hrefuses⟩ := Machine.refused_inRange hloaded.closed hstate hrunning hstep
        obtain ⟨found, rfl⟩ := hrefuses.exists_fault hloaded hfailure
        exact .faulted hreaches hrunning hstep rfl

end Interpreter

end TapeMachine
