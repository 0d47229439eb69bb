/-
# Alike attempts

Two attempts are alike if both are done with the same value or both refused for the same reason,
and leave related states behind. Some reasons may be excused: where the first attempt is refused
for one of them, nothing is said of the second.

What an instruction does depends on the tape, on the input and on the output, not on the position
at which it stands. So two machines under whose configurations the operations on related tapes are
alike execute a byte alike, at whichever positions. Only sound tapes matter, since the tape of a
machine stays sound.
-/

import TapeMachine.Proofs.Machine.Range

namespace TapeMachine

/-- Two attempts that come to the same, unless the first is refused for an excused reason. -/
inductive Attempt.Alike {ε σ τ α : Type} (Excused : ε → Prop) (Related : σ → τ → Prop) :
    Attempt ε σ α → Attempt ε τ α → Prop
  | done {value : α} {first : σ} {second : τ} (hrelated : Related first second) :
      Alike Excused Related (.done value first) (.done value second)
  | refused {reason : ε} {first : σ} {second : τ} (hrelated : Related first second) :
      Alike Excused Related (.refused reason first) (.refused reason second)
  | excused {reason : ε} {first : σ} {other : Attempt ε τ α} (hexcused : Excused reason) :
      Alike Excused Related (.refused reason first) other

namespace Attempt.Alike

variable {ε σ τ α : Type} {Excused : ε → Prop} {Related : σ → τ → Prop}
  {first : Attempt ε σ α} {second : Attempt ε τ α}

theorem mono {Wider : σ → τ → Prop} (halike : Alike Excused Related first second)
    (hwider : ∀ before after, Related before after → Wider before after) :
    Alike Excused Wider first second := by
  cases halike with
  | done hrelated => exact .done (hwider _ _ hrelated)
  | refused hrelated => exact .refused (hwider _ _ hrelated)
  | excused hexcused => exact .excused hexcused

theorem exists_of_done {value : α} {before : σ}
    (halike : Alike Excused Related (.done value before) second) :
    ∃ after, second = .done value after ∧ Related before after := by
  cases halike with
  | done hrelated => exact ⟨_, rfl, hrelated⟩

theorem exists_of_refused {reason : ε} {before : σ}
    (halike : Alike Excused Related (.refused reason before) second)
    (hstrict : ¬ Excused reason) :
    ∃ after, second = .refused reason after ∧ Related before after := by
  cases halike with
  | refused hrelated => exact ⟨_, rfl, hrelated⟩
  | excused hexcused => exact absurd hexcused hstrict

/-- If nothing is excused, either attempt can be read first. -/
theorem symm (halike : Alike Excused Related first second) (hstrict : ∀ reason, ¬ Excused reason) :
    Alike Excused (fun after before => Related before after) second first := by
  cases halike with
  | done hrelated => exact .done hrelated
  | refused hrelated => exact .refused hrelated
  | excused hexcused => exact absurd hexcused (hstrict _)

theorem of_eq {first second : Attempt ε σ α} (heq : first = second) :
    Alike Excused Eq first second := by
  obtain rfl := heq
  cases first with
  | done value state => exact .done rfl
  | refused reason state => exact .refused rfl

end Attempt.Alike

/-- A fault of one of the kinds. -/
def TapeError.OfKind (Kind : FaultKind → Prop) : TapeError → Prop
  | .fault found => Kind found.kind
  | .outOfBounds _ => False

/-- A fault of one of the kinds. -/
def Failure.OfKind (Kind : FaultKind → Prop) : Failure → Prop
  | .fault found => Kind found.kind
  | _ => False

theorem Failure.not_ofKind_false (reason : Failure) : ¬ reason.OfKind fun _ => False := by
  cases reason <;> exact not_false

/-- A fault of one of the kinds. -/
def RunError.OfKind (Kind : FaultKind → Prop) : RunError → Prop
  | .failure reason => reason.OfKind Kind
  | .spent => False

theorem TapeError.OfKind.ofTape {Kind : FaultKind → Prop} {reason : TapeError}
    (hkind : reason.OfKind Kind) : (Failure.ofTape reason).OfKind Kind := by
  cases reason with
  | fault found => exact hkind
  | outOfBounds error => exact hkind.elim

/-- Under two configurations the operations on related tapes are alike, but for faults of the
excused kinds. The first tape is sound. -/
structure Config.Alike (first second : Config) (Excused : FaultKind → Prop)
    (Related : Tape → Tape → Prop) : Prop where
  blank : Related (.blank first.tapeSize) (.blank second.tapeSize)
  read : ∀ {tape other}, tape.Sound first → Related tape other → other.read = tape.read
  right : ∀ {tape other}, tape.Sound first → Related tape other →
    Attempt.Alike (TapeError.OfKind Excused) Related tape.right other.right
  left : ∀ {tape other}, tape.Sound first → Related tape other →
    Attempt.Alike (TapeError.OfKind Excused) Related tape.left other.left
  increment : ∀ {tape other}, tape.Sound first → Related tape other →
    Attempt.Alike (TapeError.OfKind Excused) Related (tape.increment first)
      (other.increment second)
  decrement : ∀ {tape other}, tape.Sound first → Related tape other →
    Attempt.Alike (TapeError.OfKind Excused) Related (tape.decrement first)
      (other.decrement second)
  store : ∀ {tape other} (byte : Option UInt8), tape.Sound first → Related tape other →
    Attempt.Alike (TapeError.OfKind Excused) Related (State.store first byte tape)
      (State.store second byte other)

/-- Two configurations are alike on the same tapes if adding, subtracting and reading are: the
others know the length of the tape only. -/
theorem Config.alike_of_same {config wide : Config} {Excused : FaultKind → Prop}
    (hsize : wide.tapeSize = config.tapeSize)
    (hincrement : ∀ {tape : Tape}, tape.Sound config →
      Attempt.Alike (TapeError.OfKind Excused) Eq (tape.increment config)
        (tape.increment wide))
    (hdecrement : ∀ {tape : Tape}, tape.Sound config →
      Attempt.Alike (TapeError.OfKind Excused) Eq (tape.decrement config)
        (tape.decrement wide))
    (hstore : ∀ {tape : Tape} (byte : Option UInt8), tape.Sound config →
      Attempt.Alike (TapeError.OfKind Excused) Eq (State.store config byte tape)
        (State.store wide byte tape)) :
    config.Alike wide Excused Eq where
  blank := congrArg Tape.blank hsize.symm
  read _ heq := congrArg Tape.read heq.symm
  right _ heq := .of_eq (congrArg Tape.right heq)
  left _ heq := .of_eq (congrArg Tape.left heq)
  increment hsound heq := heq ▸ hincrement hsound
  decrement hsound heq := heq ▸ hdecrement hsound
  store byte hsound heq := heq ▸ hstore byte hsound

/-- Every configuration is like itself. -/
theorem Config.alike_self (config : Config) (Excused : FaultKind → Prop) :
    config.Alike config Excused Eq :=
  alike_of_same rfl (fun _ => .of_eq rfl) (fun _ => .of_eq rfl) (fun _ _ => .of_eq rfl)

/-- A sound tape, and one that is related to it. -/
structure Tape.SoundWith (config : Config) (Related : Tape → Tape → Prop)
    (tape other : Tape) : Prop where
  sound : tape.Sound config
  related : Related tape other

/-- What keeps a tape sound and comes to the same on a related one leaves the first one sound. -/
theorem Tape.Keeps.alike {config : Config} {Excused : TapeError → Prop}
    {Related : Tape → Tape → Prop} {first second : Attempt TapeError Tape Unit}
    (hkeeps : Tape.Keeps config first) (halike : Attempt.Alike Excused Related first second) :
    Attempt.Alike Excused (Tape.SoundWith config Related) first second := by
  cases halike with
  | done hrelated => exact .done ⟨hkeeps, hrelated⟩
  | refused hrelated => exact .refused ⟨hkeeps.1, hrelated⟩
  | excused hexcused => exact .excused hexcused

namespace State

/-- Two states at related positions, with related tapes and the same input and output. -/
structure Alongside (Place : Int → Int → Prop) (Related : Tape → Tape → Prop)
    (first second : State) : Prop where
  place : Place first.ip second.ip
  tape : Related first.tape second.tape
  input : second.input = first.input
  output : second.output = first.output

variable {Excused : FaultKind → Prop} {Place : Int → Int → Prop}
  {Related : Tape → Tape → Prop} {first second : State}

theorem Alongside.onTape (halong : Alongside Place Related first second)
    (hpass : Place (first.ip + 1) (second.ip + 1))
    {change other : Tape → Attempt TapeError Tape Unit}
    (halike : Attempt.Alike (TapeError.OfKind Excused) Related (change first.tape)
      (other second.tape)) :
    Attempt.Alike (Failure.OfKind Excused) (Alongside Place Related) (first.onTape change)
      (second.onTape other) := by
  generalize hfirst : change first.tape = attempt at halike
  generalize hsecond : other second.tape = otherAttempt at halike
  cases halike with
  | done hrelated =>
      rw [onTape_of_done hfirst, onTape_of_done hsecond]
      exact .done ⟨hpass, hrelated, halong.input, halong.output⟩
  | refused hrelated =>
      rw [onTape_of_refused hfirst, onTape_of_refused hsecond]
      exact .refused ⟨halong.place, hrelated, halong.input, halong.output⟩
  | excused hexcused =>
      rw [onTape_of_refused hfirst]
      exact .excused hexcused.ofTape

theorem Alongside.onOutput (halong : Alongside Place Related first second)
    (hpass : Place (first.ip + 1) (second.ip + 1)) (byte : UInt8) :
    Attempt.Alike (Failure.OfKind Excused) (Alongside Place Related) (first.onOutput byte)
      (second.onOutput byte) := by
  rw [State.onOutput, State.onOutput, halong.output]
  cases first.output.emit byte with
  | done _ output => exact .done ⟨hpass, halong.tape, halong.input, rfl⟩
  | refused error output => exact .refused ⟨halong.place, halong.tape, halong.input, rfl⟩

theorem Alongside.emit (halong : Alongside Place Related first second)
    (hpass : Place (first.ip + 1) (second.ip + 1))
    (hread : second.tape.read = first.tape.read) :
    Attempt.Alike (Failure.OfKind Excused) (Alongside Place Related) first.emit
      second.emit := by
  rw [State.emit, State.emit, hread]
  cases first.tape.read with
  | error error => exact .refused halong
  | ok value =>
      by_cases hwide : 0xFF < value
      · simp only [hwide, if_true]
        exact .done ⟨hpass, halong.tape, halong.input, halong.output⟩
      · simp only [hwide, if_false]
        exact halong.onOutput hpass _

end State

namespace Machine

variable {Excused : FaultKind → Prop} {Place : Int → Int → Prop}
  {Tapes : Tape → Tape → Prop} {first second : Machine} {state other : State}

theorem jumpIf_alike (halong : State.Alongside Place Tapes state other)
    (hpass : Place (state.ip + 1) (other.ip + 1))
    (hread : other.tape.read = state.tape.read)
    (hjump : Attempt.Alike (Failure.OfKind Excused) (State.Alongside Place Tapes)
      (first.jump state) (second.jump other)) (condition : Nat → Bool) :
    Attempt.Alike (Failure.OfKind Excused) (State.Alongside Place Tapes)
      (first.jumpIf condition state) (second.jumpIf condition other) := by
  rw [jumpIf, jumpIf, hread]
  cases state.tape.read with
  | error error => exact .refused halong
  | ok value =>
      cases hcondition : condition value with
      | true =>
          simp only [hcondition, if_true]
          exact hjump
      | false =>
          simp only [hcondition, Bool.false_eq_true, if_false]
          exact .done ⟨hpass, halong.tape, halong.input, halong.output⟩

/-- A byte is executed alike at related positions, if both machines go on to related positions and,
at a bracket, jump alike. -/
theorem execute_alike (hconfig : first.config.Alike second.config Excused Tapes)
    (halong : State.Alongside Place (Tape.SoundWith first.config Tapes) state other)
    (hpass : Place (state.ip + 1) (other.ip + 1)) {byte : UInt8}
    (hjump : isBracket byte = true →
      Attempt.Alike (Failure.OfKind Excused)
        (State.Alongside Place (Tape.SoundWith first.config Tapes))
        (first.jump state) (second.jump other)) :
    Attempt.Alike (Failure.OfKind Excused)
      (State.Alongside Place (Tape.SoundWith first.config Tapes))
      (first.execute byte state) (second.execute byte other) := by
  obtain ⟨hsound, hrelated⟩ := halong.tape
  have hread := hconfig.read hsound hrelated
  rw [execute, execute]
  cases hinstruction : Instruction.ofByte? byte with
  | none => exact .done ⟨hpass, halong.tape, halong.input, halong.output⟩
  | some instruction =>
      obtain rfl := Instruction.ofByte?_eq_some_iff.mp hinstruction
      cases instruction with
      | right =>
          exact halong.onTape hpass (hsound.right_keeps.alike (hconfig.right hsound hrelated))
      | left =>
          exact halong.onTape hpass (hsound.left_keeps.alike (hconfig.left hsound hrelated))
      | increment =>
          exact halong.onTape hpass
            (hsound.increment_keeps.alike (hconfig.increment hsound hrelated))
      | decrement =>
          exact halong.onTape hpass
            (hsound.decrement_keeps.alike (hconfig.decrement hsound hrelated))
      | output => exact halong.emit hpass hread
      | input =>
          rw [State.receive_eq, State.receive_eq, halong.input]
          have hreceived : State.Alongside Place (Tape.SoundWith first.config Tapes)
              { state with input := state.input.next.2 }
              { other with input := state.input.next.2 } :=
            ⟨halong.place, halong.tape, rfl, halong.output⟩
          exact hreceived.onTape hpass
            ((hsound.store_keeps _).alike (hconfig.store _ hsound hrelated))
      | loopStart => exact jumpIf_alike halong hpass hread (hjump rfl) _
      | loopEnd => exact jumpIf_alike halong hpass hread (hjump rfl) _

/-- A step is alike if the instruction is executed alike. -/
theorem step_alike (halike : Attempt.Alike (Failure.OfKind Excused)
      (State.Alongside Place Tapes) (first.executeNext state) (second.executeNext other)) :
    Attempt.Alike (Failure.OfKind Excused) (State.Alongside Place Tapes) (first.step state)
      (second.step other) := by
  rw [step, step]
  generalize first.executeNext state = attempt at halike
  generalize second.executeNext other = otherAttempt at halike
  cases halike with
  | done hnext => exact .done ⟨hnext.place, hnext.tape, hnext.input, hnext.output⟩
  | refused hlast => exact .refused hlast
  | excused hexcused => exact .excused hexcused

end Machine

end TapeMachine
