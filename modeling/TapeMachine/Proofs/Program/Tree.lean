/-
# Trees of balanced programs

A balanced program is written out from exactly one tree whose leaves are no brackets: reading the
bytes from left to right, each of them says whether the next node is a leaf, a loop, or the end of
the sequence. A node of the tree stands in the program at a position, and the body of a loop
between the two brackets of the loop.
-/

import TapeMachine.Program.Tree
import TapeMachine.Proofs.Program.Matched

namespace TapeMachine

namespace Node

/-- Induction over a sequence of nodes, into the bodies of its loops. -/
@[elab_as_elim]
theorem sequenceInduction {motive : List Node → Prop} (nil : motive [])
    (leaf : ∀ byte nodes, motive nodes → motive (.leaf byte :: nodes))
    (loop : ∀ body nodes, motive body → motive nodes → motive (.loop body :: nodes)) :
    ∀ nodes, motive nodes
  | [] => nil
  | .leaf byte :: nodes => leaf byte nodes (sequenceInduction nil leaf loop nodes)
  | .loop body :: nodes =>
      loop body nodes (sequenceInduction nil leaf loop body) (sequenceInduction nil leaf loop nodes)

@[simp]
theorem writeAll_nil : writeAll [] = [] := rfl

@[simp]
theorem writeAll_leaf_cons (byte : UInt8) (nodes : List Node) :
    writeAll (.leaf byte :: nodes) = byte :: writeAll nodes := rfl

@[simp]
theorem writeAll_loop_cons (body nodes : List Node) :
    writeAll (.loop body :: nodes) =
      Instruction.loopStart.byte :: (writeAll body ++ Instruction.loopEnd.byte :: writeAll nodes) :=
  congrArg (List.cons _) (List.append_assoc _ _ _)

theorem length_writeAll_leaf_cons (byte : UInt8) (nodes : List Node) :
    (writeAll (.leaf byte :: nodes)).length = (writeAll nodes).length + 1 := rfl

theorem length_writeAll_loop_cons (body nodes : List Node) :
    (writeAll (.loop body :: nodes)).length =
      (writeAll body).length + 1 + 1 + (writeAll nodes).length := by
  rw [writeAll_loop_cons, List.length_cons, List.length_append, List.length_cons]
  omega

theorem balanced_writeAll {nodes : List Node} (hnodes : AllWellFormed nodes) :
    Balanced (writeAll nodes) := by
  induction nodes using sequenceInduction with
  | nil => exact .nil
  | leaf byte nodes ih => exact .leaf hnodes.1 (ih hnodes.2)
  | loop body nodes ihbody ihnodes =>
      rw [writeAll_loop_cons]
      exact .loop (ihbody hnodes.1) (ihnodes hnodes.2)

/-- A balanced program has a tree. -/
theorem exists_writeAll_eq_of_balanced {code : List UInt8} (hcode : Balanced code) :
    ∃ nodes, AllWellFormed nodes ∧ writeAll nodes = code := by
  induction hcode with
  | nil => exact ⟨[], trivial, rfl⟩
  | @leaf byte _ hleaf _ ih =>
      obtain ⟨nodes, hnodes, rfl⟩ := ih
      exact ⟨.leaf byte :: nodes, ⟨hleaf, hnodes⟩, rfl⟩
  | loop _ _ ihbody ihrest =>
      obtain ⟨body, hbody, rfl⟩ := ihbody
      obtain ⟨nodes, hnodes, rfl⟩ := ihrest
      exact ⟨.loop body :: nodes, ⟨hbody, hnodes⟩, writeAll_loop_cons body nodes⟩

/-- Bytes with which no sequence of nodes goes on: none at all, or a closing bracket first. -/
def Stops (rest : List UInt8) : Prop :=
  ∀ byte ∈ rest.head?, byte = Instruction.loopEnd.byte

theorem not_stops_leaf_cons {byte : UInt8} (hleaf : isBracket byte = false)
    (rest : List UInt8) : ¬ Stops (byte :: rest) := by
  intro hstops
  obtain rfl := hstops byte rfl
  contradiction

theorem not_stops_loopStart_cons (rest : List UInt8) :
    ¬ Stops (Instruction.loopStart.byte :: rest) := by
  intro hstops
  have := hstops _ rfl
  contradiction

theorem stops_nil : Stops [] := by
  intro byte hbyte
  contradiction

theorem stops_loopEnd_cons (rest : List UInt8) : Stops (Instruction.loopEnd.byte :: rest) := by
  intro byte hbyte
  exact (Option.some.inj hbyte).symm

/-- A byte that is no bracket does not open a loop. -/
theorem ne_loopStart_of_leaf {byte : UInt8} (hleaf : isBracket byte = false) :
    byte ≠ Instruction.loopStart.byte := by
  rintro rfl
  contradiction

/-- The first bytes of a program determine the tree that they are written from, as far as it goes:
no byte begins a node in two ways or both goes on and stops. -/
theorem writeAll_append_inj {first second : List Node} {more rest : List UInt8}
    (hfirst : AllWellFormed first) (hsecond : AllWellFormed second) (hmore : Stops more)
    (hrest : Stops rest) (heq : writeAll first ++ more = writeAll second ++ rest) :
    first = second ∧ more = rest := by
  induction first using sequenceInduction generalizing second more rest with
  | nil =>
      rw [writeAll_nil, List.nil_append] at heq
      rcases second with - | ⟨byte | body, nodes⟩
      · exact ⟨rfl, heq⟩
      · rw [heq, writeAll_leaf_cons, List.cons_append] at hmore
        exact absurd hmore (not_stops_leaf_cons hsecond.1 _)
      · rw [heq, writeAll_loop_cons, List.cons_append] at hmore
        exact absurd hmore (not_stops_loopStart_cons _)
  | leaf byte nodes ih =>
      rw [writeAll_leaf_cons, List.cons_append] at heq
      rcases second with - | ⟨other | body, others⟩
      · rw [writeAll_nil, List.nil_append] at heq
        rw [← heq] at hrest
        exact absurd hrest (not_stops_leaf_cons hfirst.1 _)
      · rw [writeAll_leaf_cons, List.cons_append] at heq
        obtain ⟨rfl, htail⟩ := List.cons.inj heq
        obtain ⟨rfl, hends⟩ := ih hfirst.2 hsecond.2 hmore hrest htail
        exact ⟨rfl, hends⟩
      · rw [writeAll_loop_cons, List.cons_append] at heq
        exact absurd (List.cons.inj heq).1 (ne_loopStart_of_leaf hfirst.1)
  | loop body nodes ihbody ihnodes =>
      rw [writeAll_loop_cons, List.cons_append, List.append_assoc, List.cons_append] at heq
      rcases second with - | ⟨byte | otherBody, others⟩
      · rw [writeAll_nil, List.nil_append] at heq
        rw [← heq] at hrest
        exact absurd hrest (not_stops_loopStart_cons _)
      · rw [writeAll_leaf_cons, List.cons_append] at heq
        exact absurd (List.cons.inj heq).1.symm (ne_loopStart_of_leaf hsecond.1)
      · rw [writeAll_loop_cons, List.cons_append, List.append_assoc, List.cons_append] at heq
        obtain ⟨rfl, htail⟩ := ihbody hfirst.1 hsecond.1 (stops_loopEnd_cons _)
          (stops_loopEnd_cons _) (List.cons.inj heq).2
        obtain ⟨rfl, hends⟩ :=
          ihnodes hfirst.2 hsecond.2 hmore hrest (List.cons.inj htail).2
        exact ⟨rfl, hends⟩

/-- A program has at most one tree. -/
theorem writeAll_inj {first second : List Node} (hfirst : AllWellFormed first)
    (hsecond : AllWellFormed second) (heq : writeAll first = writeAll second) :
    first = second :=
  (writeAll_append_inj hfirst hsecond stops_nil stops_nil (congrArg (· ++ []) heq)).1

/-- The nodes stand in the code, beginning at a position. -/
structure Located (code : List UInt8) (position : Nat) (nodes : List Node) : Prop where
  wellFormed : AllWellFormed nodes
  around : ∃ before after, before.length = position ∧ code = before ++ (writeAll nodes ++ after)

namespace Located

variable {code : List UInt8} {position : Nat} {nodes : List Node}

theorem whole (hnodes : AllWellFormed nodes) : Located (writeAll nodes) 0 nodes :=
  ⟨hnodes, [], [], rfl, (List.append_nil _).symm⟩

theorem leaf_byte {byte : UInt8} (hlocated : Located code position (.leaf byte :: nodes)) :
    code[position]? = some byte := by
  obtain ⟨-, before, after, rfl, rfl⟩ := hlocated
  simp

theorem leaf_rest {byte : UInt8} (hlocated : Located code position (.leaf byte :: nodes)) :
    Located code (position + 1) nodes := by
  obtain ⟨⟨-, hnodes⟩, before, after, rfl, rfl⟩ := hlocated
  exact ⟨hnodes, before ++ [byte], after, List.length_append, by simp⟩

variable {body : List Node}

theorem loop_body (hlocated : Located code position (.loop body :: nodes)) :
    Located code (position + 1) body := by
  obtain ⟨⟨hbody, -⟩, before, after, rfl, rfl⟩ := hlocated
  exact ⟨hbody, before ++ [Instruction.loopStart.byte],
    Instruction.loopEnd.byte :: (writeAll nodes ++ after), List.length_append, by simp⟩

theorem loop_rest (hlocated : Located code position (.loop body :: nodes)) :
    Located code (position + ((writeAll body).length + 1) + 1) nodes := by
  obtain ⟨⟨-, hnodes⟩, before, after, rfl, rfl⟩ := hlocated
  refine ⟨hnodes,
    before ++ Instruction.loopStart.byte :: (writeAll body ++ [Instruction.loopEnd.byte]), after,
    ?_, ?_⟩
  · simp [Nat.add_assoc]
  · simp

/-- The two brackets around the body of a loop are matched. -/
theorem loop_matched (hlocated : Located code position (.loop body :: nodes)) :
    Brackets.Matched code position (position + ((writeAll body).length + 1)) := by
  obtain ⟨⟨hbody, -⟩, before, after, rfl, rfl⟩ := hlocated
  rw [writeAll_loop_cons, List.cons_append, List.append_assoc, List.cons_append]
  exact Brackets.matched_append_loop before _ (balanced_writeAll hbody)

end Located

end Node

end TapeMachine
