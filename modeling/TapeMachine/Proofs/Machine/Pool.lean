/-
# Machines that share their input

Several machines, each with its own output, read from one input. They get turns in any order, and
a byte that one of them receives is gone for the others. A byte goes to one machine only, and what
a machine comes to depends on the others through nothing but the bytes that they have left for it:
alone, on the bytes that it has received, it comes to the same.
-/

import TapeMachine.Proofs.Machine.Tick

namespace TapeMachine

/-- Machines that share their input. Some of them, or all, may have one program. -/
structure Pool (ι : Type) where
  machine : ι → Machine
  /-- The states of the machines, whose own inputs are not used. -/
  state : ι → State
  /-- What is left of the input of all of them. -/
  input : Input

/-- What has happened in one turn. -/
structure Turn (ι : Type) where
  member : ι
  /-- The byte that the member has taken from the input. -/
  received : Option UInt8
  refusal : Option Failure

theorem Turn.filterMap_received_cons {ι : Type} (turn : Turn ι) (turns : List (Turn ι)) :
    (turn :: turns).filterMap received = turn.received.toList ++ turns.filterMap received := by
  cases hreceived : turn.received with
  | none => exact List.filterMap_cons_none hreceived
  | some byte => exact List.filterMap_cons_some hreceived

namespace Pool

variable {ι : Type}

/-- The state of a member, with the common input for its own. -/
def view (pool : Pool ι) (member : ι) : State := (pool.state member).withInput pool.input

def tick (pool : Pool ι) (member : ι) : Attempt Failure State Unit :=
  (pool.machine member).tick (pool.view member)

def turn (pool : Pool ι) (member : ι) : Turn ι where
  member := member
  received := (pool.machine member).received? (pool.view member)
  refusal := (pool.tick member).refusal?

variable {pool : Pool ι} {bytes : List UInt8}

/-- A member at `,` receives the next byte of the common input, if there is one. -/
theorem received_eq (hinput : pool.input = .ofBytes bytes) (member : ι) :
    (pool.turn member).received =
      if (pool.machine member).instruction? (pool.view member) = some .input then bytes.head?
      else none := by
  have hview : (pool.view member).input = .ofBytes bytes := hinput
  change (pool.machine member).received? (pool.view member) = _
  rw [Machine.received?, hview, Input.next_ofBytes]

/-- A member does the same alone, if its input begins with the byte that it receives in its turn.
Where it finds the end of the common input, its own has to be at its end. -/
theorem tick_alone (hinput : pool.input = .ofBytes bytes) (member : ι) {later : List UInt8}
    (hend : bytes = [] → later = []) :
    (pool.machine member).tick ((pool.state member).withInput
        (.ofBytes ((pool.turn member).received.toList ++ later))) =
      (pool.tick member).map (State.withInput (.ofBytes later)) := by
  have hview : (pool.view member).input = .ofBytes bytes := hinput
  have hexchange := @Machine.tick_withInput (pool.machine member) (pool.view member)
    (.ofBytes ((pool.turn member).received.toList ++ later))
  rw [received_eq hinput, hview] at hexchange
  rw [received_eq hinput]
  by_cases hread : (pool.machine member).instruction? (pool.view member) = some .input
  · rw [if_pos hread, if_pos hread] at hexchange
    rw [if_pos hread]
    cases bytes with
    | nil =>
        rw [hend rfl] at hexchange ⊢
        exact hexchange fun _ => rfl
    | cons byte bytes => exact hexchange fun _ => rfl
  · rw [if_neg hread, if_neg hread] at hexchange
    rw [if_neg hread]
    exact hexchange fun hread' => absurd hread' hread

variable [DecidableEq ι]

/-- The pool after a turn of one member. -/
def next (pool : Pool ι) (member : ι) : Pool ι where
  machine := pool.machine
  state := Function.update pool.state member (pool.tick member).state
  input := (pool.tick member).state.input

/-- The pool after the turns of a schedule. -/
def play (pool : Pool ι) : List ι → Pool ι
  | [] => pool
  | member :: schedule => play (pool.next member) schedule

/-- What happens in the turns of a schedule. -/
def turns (pool : Pool ι) : List ι → List (Turn ι)
  | [] => []
  | member :: schedule => pool.turn member :: turns (pool.next member) schedule

/-- The bytes that are received in the turns of a schedule, by whatever member. -/
def received (pool : Pool ι) (schedule : List ι) : List UInt8 :=
  (pool.turns schedule).filterMap Turn.received

/-- The turns of one member among those of a schedule. -/
def turnsOf (pool : Pool ι) (member : ι) (schedule : List ι) : List (Turn ι) :=
  (pool.turns schedule).filter (·.member = member)

/-- The state in which a member begins alone: its input are the bytes that it receives in the turns
of a schedule. -/
def alone (pool : Pool ι) (member : ι) (schedule : List ι) : State :=
  (pool.state member).withInput
    (.ofBytes ((pool.turnsOf member schedule).filterMap Turn.received))

/-- What a member does in the turns of a schedule, it does alone as well, on the bytes that it
receives in them. -/
structure PlaysAlone (pool : Pool ι) (member : ι) (schedule : List ι) : Prop where
  /-- Its turns are refused for the same reasons. -/
  refusals : (pool.machine member).refusals (pool.turnsOf member schedule).length
      (pool.alone member schedule) = (pool.turnsOf member schedule).map Turn.refusal
  /-- Its turns come to the same state, and no byte is left over. -/
  last : (pool.machine member).ticks (pool.turnsOf member schedule).length
      (pool.alone member schedule) = ((pool.play schedule).state member).withInput .empty

/-- What a member does in the turns of a schedule is a run of it alone, on the bytes that it
receives in them. -/
structure RunsAlone (pool : Pool ι) (member : ι) (schedule : List ι) : Prop where
  /-- The run fails with what the last turn of the member is refused for. -/
  refusal : ((pool.machine member).advance (pool.turnsOf member schedule).length
      (pool.alone member schedule)).refusal? =
    (pool.turnsOf member schedule).getLast?.bind Turn.refusal
  /-- The run comes to the same state, but it has counted its steps. -/
  last : ∃ steps, ((pool.machine member).advance (pool.turnsOf member schedule).length
      (pool.alone member schedule)).state =
    (((pool.play schedule).state member).withInput .empty).recount steps

/-- A turn takes the byte that it receives from the input. -/
theorem next_input (hinput : pool.input = .ofBytes bytes) (member : ι) :
    ∃ unread, (pool.next member).input = .ofBytes unread ∧
      (pool.turn member).received.toList ++ unread = bytes := by
  have hview : (pool.view member).input = .ofBytes bytes := hinput
  have htaken : (pool.next member).input = _ := (pool.machine member).tick_input (pool.view member)
  rw [hview, Input.next_ofBytes] at htaken
  rw [received_eq hinput]
  by_cases hread : (pool.machine member).instruction? (pool.view member) = some .input
  · rw [if_pos hread] at htaken ⊢
    exact ⟨bytes.drop 1, htaken, by cases bytes <;> rfl⟩
  · rw [if_neg hread] at htaken ⊢
    exact ⟨bytes, htaken, rfl⟩

theorem received_cons (pool : Pool ι) (member : ι) (schedule : List ι) :
    pool.received (member :: schedule) =
      (pool.turn member).received.toList ++ (pool.next member).received schedule :=
  Turn.filterMap_received_cons _ _

/-- The bytes that are received, one after another, and those that are left are the input. -/
theorem play_input (hinput : pool.input = .ofBytes bytes) (schedule : List ι) :
    ∃ unread, (pool.play schedule).input = .ofBytes unread ∧
      pool.received schedule ++ unread = bytes := by
  induction schedule generalizing pool bytes with
  | nil => exact ⟨bytes, hinput, rfl⟩
  | cons member schedule ih =>
      obtain ⟨later, hnext, hlater⟩ := next_input hinput member
      obtain ⟨unread, hplay, hunread⟩ := ih hnext
      refine ⟨unread, hplay, ?_⟩
      rw [received_cons, List.append_assoc, hunread, hlater]

/-- Nothing is received from an empty input. -/
theorem received_of_empty (hinput : pool.input = .ofBytes []) (schedule : List ι) :
    pool.received schedule = [] := by
  obtain ⟨unread, -, hbytes⟩ := play_input hinput schedule
  exact (List.append_eq_nil_iff.mp hbytes).1

theorem turnsOf_cons_self (pool : Pool ι) (member : ι) (schedule : List ι) :
    pool.turnsOf member (member :: schedule) =
      pool.turn member :: (pool.next member).turnsOf member schedule :=
  List.filter_cons_of_pos (decide_eq_true rfl)

theorem turnsOf_cons_of_ne {member other : ι} (hne : other ≠ member) (pool : Pool ι)
    (schedule : List ι) :
    pool.turnsOf member (other :: schedule) = (pool.next other).turnsOf member schedule :=
  List.filter_cons_of_neg (by rw [decide_eq_true_iff]; exact hne)

/-- What one member receives is received. -/
theorem received_turnsOf_sublist (pool : Pool ι) (member : ι) (schedule : List ι) :
    ((pool.turnsOf member schedule).filterMap Turn.received).Sublist (pool.received schedule) :=
  List.filter_sublist.filterMap Turn.received

theorem alone_cons_self (pool : Pool ι) (member : ι) (schedule : List ι) :
    pool.alone member (member :: schedule) =
      (pool.state member).withInput (.ofBytes ((pool.turn member).received.toList ++
        ((pool.next member).turnsOf member schedule).filterMap Turn.received)) := by
  rw [alone, turnsOf_cons_self, Turn.filterMap_received_cons]

/-- The turns of the other members leave a member where it is. -/
theorem PlaysAlone.cons_of_ne {member other : ι} {schedule : List ι} (hne : other ≠ member)
    (halone : (pool.next other).PlaysAlone member schedule) :
    pool.PlaysAlone member (other :: schedule) := by
  obtain ⟨hrefusals, hlast⟩ := halone
  have hstate : (pool.next other).state member = pool.state member :=
    Function.update_of_ne (Ne.symm hne) ..
  rw [alone, hstate] at hrefusals hlast
  constructor
  · rw [alone, turnsOf_cons_of_ne hne]
    exact hrefusals
  · rw [alone, turnsOf_cons_of_ne hne]
    exact hlast

/-- A turn of a member is a turn alone. -/
theorem PlaysAlone.cons_self (hinput : pool.input = .ofBytes bytes) {member : ι}
    {schedule : List ι} (halone : (pool.next member).PlaysAlone member schedule) :
    pool.PlaysAlone member (member :: schedule) := by
  obtain ⟨hrefusals, hlast⟩ := halone
  -- Behind the end of the common input nobody receives anything, so that the member finds the end
  -- of its own input where it finds that of the common one.
  have hend : bytes = [] →
      ((pool.next member).turnsOf member schedule).filterMap Turn.received = [] := by
    intro hempty
    obtain ⟨unread, hnext, hbytes⟩ := next_input hinput member
    rw [(List.append_eq_nil_iff.mp (hbytes.trans hempty)).2] at hnext
    have hnone := received_of_empty hnext schedule
    exact List.eq_nil_of_sublist_nil
      (hnone ▸ received_turnsOf_sublist (pool.next member) member schedule)
  have htick := tick_alone hinput member hend
  have hstate : (pool.next member).state member = (pool.tick member).state :=
    Function.update_self ..
  rw [alone, hstate] at hrefusals hlast
  constructor
  · rw [turnsOf_cons_self, alone_cons_self, List.length_cons, List.map_cons,
      Machine.refusals, htick, Attempt.refusal?_map, Attempt.state_map, ← hrefusals]
    rfl
  · rw [turnsOf_cons_self, alone_cons_self, List.length_cons, Machine.ticks, htick,
      Attempt.state_map]
    exact hlast

theorem playsAlone (hinput : pool.input = .ofBytes bytes) (member : ι) (schedule : List ι) :
    pool.PlaysAlone member schedule := by
  induction schedule generalizing pool bytes with
  | nil => exact ⟨rfl, rfl⟩
  | cons chosen schedule ih =>
      obtain ⟨unread, hnext, -⟩ := next_input hinput chosen
      by_cases hchosen : chosen = member
      · subst hchosen
        exact (ih hnext).cons_self hinput
      · exact (ih hnext).cons_of_ne hchosen

theorem PlaysAlone.runsAlone {member : ι} {schedule : List ι}
    (halone : pool.PlaysAlone member schedule)
    (hturns : ∀ turn ∈ (pool.turnsOf member schedule).dropLast, turn.refusal = none) :
    pool.RunsAlone member schedule := by
  have hrefusals : ∀ refusal ∈ ((pool.machine member).refusals
      (pool.turnsOf member schedule).length (pool.alone member schedule)).dropLast,
      refusal = none := by
    rw [halone.refusals, ← List.map_dropLast]
    intro refusal hmem
    obtain ⟨turn, hturn, rfl⟩ := List.mem_map.mp hmem
    exact hturns turn hturn
  obtain ⟨hrefusal, hlast⟩ :=
    Machine.advance_of_refusals (pool.alone member schedule).steps hrefusals
  rw [halone.refusals, List.getLast?_map] at hrefusal
  rw [halone.last] at hlast
  refine ⟨hrefusal.trans ?_, hlast⟩
  cases (pool.turnsOf member schedule).getLast? <;> rfl

/-- Whatever the schedule is, a byte of the common input is received at most once, in the order of
the input. And each of the machines does alone what it does among the others, on the bytes that it
receives there; if it gets no turn after one that was refused, this is a run of it. -/
theorem play_agrees_with_playing_alone (hinput : pool.input = .ofBytes bytes)
    (schedule : List ι) :
    (∃ unread, (pool.play schedule).input = .ofBytes unread ∧
        pool.received schedule ++ unread = bytes) ∧
      ∀ member, pool.PlaysAlone member schedule ∧
        ((∀ turn ∈ (pool.turnsOf member schedule).dropLast, turn.refusal = none) →
          pool.RunsAlone member schedule) := by
  refine ⟨play_input hinput schedule, fun member => ?_⟩
  have halone := playsAlone hinput member schedule
  exact ⟨halone, halone.runsAlone⟩

/-- Two machines with one program, which reads a byte, writes it and reads another. The end of the
input is a fault for the one and a zero for the other. -/
def readers : Pool Bool where
  machine faults :=
    ⟨⟨#[0x2C, 0x2E, 0x2C], #[none, none, none]⟩,
      ⟨1, by decide, .eight, .wrap, .wrap, if faults then .fault else .zero⟩⟩
  state _ := ⟨0, ⟨#[0], 0⟩, 0, .empty, .empty none, #[]⟩
  input := .ofBytes [65, 66]

/-- The machines take a byte each, and then both find the end of the input. -/
theorem play_agrees_with_playing_alone_of_readers :
    readers.input = .ofBytes [65, 66] ∧
      readers.received [true, false, true, false, true, false, false] = [65, 66] ∧
      (readers.machine false).ticks 4 ⟨0, ⟨#[0], 0⟩, 0, .ofBytes [66], .empty none, #[]⟩ =
        ⟨3, ⟨#[0], 0⟩, 0, .empty, ⟨#[66], 1, none⟩, #[]⟩ ∧
      ((readers.machine true).advance 3
          ⟨0, ⟨#[0], 0⟩, 0, .ofBytes [65], .empty none, #[]⟩).refusal? =
        some (.fault (Fault.inputExhausted 0 65)) := by
  have hinput : readers.input = .ofBytes [65, 66] := rfl
  obtain ⟨⟨unread, hplay, hreceived⟩, halone⟩ :=
    play_agrees_with_playing_alone hinput [true, false, true, false, true, false, false]
  have hend : (readers.play [true, false, true, false, true, false, false]).input =
      .ofBytes [] := by decide +kernel
  have hnone : unread = [] := Input.ofBytes_inj (hplay.symm.trans hend)
  refine ⟨hinput, ?_, ?_, ?_⟩
  · rw [hnone, List.append_nil] at hreceived
    exact hreceived
  · exact (halone false).1.last
  · exact ((halone true).2 (by decide)).refusal

end Pool

end TapeMachine
