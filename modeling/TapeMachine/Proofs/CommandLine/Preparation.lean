/-
# Getting ready to run

A session does not run its program if the settings name no configuration, if the program file cannot
be read, is too long or has a bracket without a partner, or if the input cannot be opened. Each of
these is reported. If there is nothing of that sort, the program is run as reading, loading and
running its file would have it.
-/

import TapeMachine.CommandLine.Session
import TapeMachine.Proofs.CommandLine.Request
import TapeMachine.Proofs.Config.Settings
import TapeMachine.Proofs.Program.Loaded

namespace TapeMachine

namespace ProgramFile

/-- A program file is read if it can be opened and is not too long. -/
theorem read_eq (files : FileSystem) (path : String) :
    read files path sizeLimit =
      match files (Path.normalise path) with
      | .error .embeddedNul => .error .embeddedNul
      | .error (.system error) => .error (.unreadable (Path.normalise path) error)
      | .ok contents =>
          if 1048576 < contents.length then .error (.tooLong (Path.normalise path) sizeLimit)
          else .ok contents := by
  rw [read]
  cases files (Path.normalise path) with
  | error error => cases error <;> rfl
  | ok contents =>
      have hrequest : request contents (sizeLimit + 1) = .ok (contents.take 1048577) := rfl
      have hlength : (contents.take 1048577).length = min 1048577 contents.length :=
        List.length_take
      simp only [hrequest]
      by_cases hlong : 1048576 < contents.length
      · have htaken : sizeLimit < (contents.take 1048577).length := by
          rw [sizeLimit]
          omega
        rw [if_pos hlong, if_pos htaken]
      · have htaken : ¬ sizeLimit < (contents.take 1048577).length := by
          rw [sizeLimit]
          omega
        rw [if_neg hlong, if_neg htaken, List.take_of_length_le (by omega)]

end ProgramFile

namespace CommandLine

/-- What keeps the program of a request from being run. -/
inductive Hindered (host : Host) (files : FileSystem) (request : Request) : Prop
  /-- The settings name no configuration. -/
  | settings {error : SettingsError} (hrefused : request.settings.accept host = .error error)
  | unreadable {error : AccessError}
      (hopen : files (Path.normalise request.program) = .error error)
  | tooLong {code : List UInt8} (hopen : files (Path.normalise request.program) = .ok code)
      (hlong : 1048576 < code.length)
  | unbalanced {code : List UInt8} (hopen : files (Path.normalise request.program) = .ok code)
      (hunbalanced : ¬ Balanced code)
  | input {path : String} {error : AccessError} (hinput : request.input = .text path)
      (hopen : files path = .error error)

/-- The bytes that the program of a request is to read: those of the input file, or those of the
standard input if there is none. -/
inductive Reads (files : FileSystem) (request : Request) (stdin : List UInt8) : List UInt8 → Prop
  | standard (hinput : request.input = .nothing) : Reads files request stdin stdin
  | file {path : String} {contents : List UInt8} (hinput : request.input = .text path)
      (hopen : files path = .ok contents) : Reads files request stdin contents

theorem not_hindered {host : Host} {files : FileSystem} {request : Request} {accepted : Accepted}
    {code stdin data : List UInt8} (haccept : request.settings.accept host = .ok accepted)
    (hopen : files (Path.normalise request.program) = .ok code)
    (hshort : ¬ 1048576 < code.length) (hbalanced : Balanced code)
    (hreads : Reads files request stdin data) : ¬ Hindered host files request := by
  intro hhindered
  cases hhindered with
  | settings hrefused =>
      rw [haccept] at hrefused
      contradiction
  | unreadable hother =>
      rw [hopen] at hother
      contradiction
  | tooLong hother hlong =>
      obtain rfl := Except.ok.inj (hopen.symm.trans hother)
      exact hshort hlong
  | unbalanced hother hunbalanced =>
      obtain rfl := Except.ok.inj (hopen.symm.trans hother)
      exact hunbalanced hbalanced
  | input hinput hother =>
      cases hreads with
      | standard hnone =>
          rw [hinput] at hnone
          contradiction
      | file hpath hfile =>
          obtain rfl := Setting.text.inj (hinput.symm.trans hpath)
          rw [hfile] at hother
          contradiction

/-- What is taken for granted of a request: no separator has left an empty list where it would not
be refused, the paths hold no NUL, and there is room for the tape. -/
structure Ordinary (host : Host) (files : FileSystem) (request : Request) : Prop where
  cellWidth : request.settings.cellWidth ≠ .list []
  input : request.input ≠ .list []
  programPath : files (Path.normalise request.program) ≠ .error .embeddedNul
  inputPath : ∀ path, request.input = .text path → files path ≠ .error .embeddedNul
  room : ∀ accepted cells pos, request.settings.accept host = .ok accepted →
    accepted.tapeSize = .cells cells pos → Accepted.obstacle? host cells accepted.width = none

namespace Session

theorem report_of_isRefusal {error : SettingsError} (hrefusal : error.IsRefusal) :
    report (.settings error) = .ok error.message := by
  cases error with
  | unknownField | cellWidthIsList | unwritable => exact hrefusal.elim
  | badTapeSize | badCellWidth | badOverflow | badUnderflow | badAtEnd => rfl

variable {host : Host} {files : FileSystem} {request : Request}

/-- Settings that flags have given are refused with a message. -/
theorem report_settings (htyped : Draft.Typed request.settings request.input)
    (hordinary : Ordinary host files request) {error : SettingsError}
    (hrefused : request.settings.accept host = .error error) :
    report (.settings error) = .ok error.message := by
  have hverdict := request.settings.accept_verdict host
  obtain ⟨number, hnumber⟩ := htyped.cellWidth.resolve_left hordinary.cellWidth
  rw [hrefused] at hverdict
  cases hverdict with
  | cellWidthIsList _ hlist =>
      rw [hnumber] at hlist
      contradiction
  | refused hfirst =>
      have hwritable := htyped.writable _ hfirst.mem_all host.nesting
      have hrefusal := (hfirst.isRefusal_iff host).mpr hwritable
      exact report_of_isRefusal hrefusal

/-- Settings that flags have given and that are accepted name a configuration. -/
theorem exists_config (htyped : Draft.Typed request.settings request.input)
    (hordinary : Ordinary host files request) {accepted : Accepted}
    (haccept : request.settings.accept host = .ok accepted) :
    ∃ config, accepted.config host = .ok config := by
  have hverdict := request.settings.accept_verdict host
  obtain ⟨number, hnumber⟩ := htyped.cellWidth.resolve_left hordinary.cellWidth
  rw [haccept] at hverdict
  cases hverdict with
  | accepted _ hsize hwidth =>
      have hcells : ∃ count pos, accepted.tapeSize = .cells count pos := by
        rcases htyped.tapeSize with hlist | ⟨value, hvalue⟩
        · rw [hlist] at hsize
          contradiction
        · exact Settings.acceptSize_integer (hvalue ▸ hsize)
      obtain ⟨count, pos, hcells⟩ := hcells
      have hdouble : accepted.widthIsDouble = false := by
        have hkind := Settings.acceptWidth_eq_ok hwidth
        rw [← Bool.not_eq_true]
        intro hisDouble
        rw [if_pos hisDouble, hnumber] at hkind
        obtain ⟨_, hvalue, -⟩ := hkind
        contradiction
      have hroom := hordinary.room accepted count pos haccept hcells
      exact ⟨_, Accepted.config_eq_ok hcells hdouble hroom⟩

/-- The input of a session is opened, unless it is a file for which that fails. -/
theorem openInput_spec (htyped : Draft.Typed request.settings request.input)
    (hordinary : Ordinary host files request) (stdin : List UInt8) :
    (∃ data, openInput files request.input (.ofBytes stdin) = .ok (.ofBytes data) ∧
        Reads files request stdin data) ∨
      ∃ path error, request.input = .text path ∧ files path = .error (.system error) ∧
        openInput files request.input (.ofBytes stdin) = .error (.input path error) := by
  rcases htyped.input.resolve_left hordinary.input with hinput | ⟨path, hinput⟩
  · rw [hinput]
    exact .inl ⟨stdin, rfl, .standard hinput⟩
  · cases hopen : files path with
    | ok contents =>
        have hopened :
            openInput files request.input (.ofBytes stdin) = .ok (.ofBytes contents) := by
          simp [openInput, hinput, hopen]
        exact .inl ⟨contents, hopened, .file hinput hopen⟩
    | error error =>
        cases error with
        | embeddedNul => exact absurd hopen (hordinary.inputPath path hinput)
        | system error =>
            have hopened : openInput files request.input (.ofBytes stdin) =
                .error (.input path error) := by
              simp [openInput, hinput, hopen]
            exact .inr ⟨path, error, hinput, hopen, hopened⟩

/-- What has become of a request when its program is about to be run. -/
inductive Prepared (host : Host) (files : FileSystem) (request : Request) (stdin : List UInt8)
    (stdout : Sink) : Except (List Event × Obstacle) Session → Prop
  | hindered {events : List Event} {obstacle : Obstacle} {message : String}
      (hhindered : Hindered host files request) (hreport : report obstacle = .ok message) :
      Prepared host files request stdin stdout (.error (events, obstacle))
  | ready {accepted : Accepted} {program : Program} {config : Config} {data : List UInt8}
      (hready : ¬ Hindered host files request)
      (haccept : request.settings.accept host = .ok accepted)
      (hreads : Reads files request stdin data) (hloaded : program.Loaded)
      (hrun : ∀ fuel, Execution.runFile host files request.program accepted (some data) fuel =
        Execution.runProgram program config (some data) fuel) :
      Prepared host files request stdin stdout
        (.ok ⟨request, { Interpreter.new program config (.ofBytes data) stdout with
          state.log := #[Event.ofProgram program] }⟩)

theorem prepare_prepared (htyped : Draft.Typed request.settings request.input)
    (hordinary : Ordinary host files request) (stdin : List UInt8) (stdout : Sink) :
    Prepared host files request stdin stdout
      (prepare host files request (.ofBytes stdin) stdout) := by
  rw [prepare]
  cases haccept : request.settings.accept host with
  | error error => exact .hindered (.settings haccept) (report_settings htyped hordinary haccept)
  | ok accepted =>
      obtain ⟨config, hconfig⟩ := exists_config htyped hordinary haccept
      have hread := ProgramFile.read_eq files request.program
      cases hopen : files (Path.normalise request.program) with
      | error error =>
          cases error with
          | embeddedNul => exact absurd hopen hordinary.programPath
          | system error =>
              rw [hopen] at hread
              simp only [hread]
              exact .hindered (.unreadable hopen) rfl
      | ok code =>
          rw [hopen] at hread
          by_cases hlong : 1048576 < code.length
          · simp only [hread, hlong, if_true]
            exact .hindered (.tooLong hopen hlong) rfl
          · simp only [hlong, if_false] at hread
            simp only [hread]
            rcases Program.ofBytes_spec code .utf8 with
              ⟨found, hprogram, hunbalanced⟩ | ⟨program, hprogram, hload, hloaded, hbalanced⟩
            · simp only [hprogram]
              exact .hindered (.unbalanced hopen hunbalanced) rfl
            · simp only [hprogram]
              rcases openInput_spec htyped hordinary stdin with
                ⟨data, hopened, hreads⟩ | ⟨path, error, hinput, hfile, hopened⟩
              · simp only [hopened, hconfig]
                refine .ready (not_hindered haccept hopen hlong hbalanced hreads) haccept hreads
                  hloaded fun fuel => ?_
                simp only [Execution.runFile, hread, Execution.runSource, hload, hconfig]
              · simp only [hopened]
                exact .hindered (.input hinput hfile) rfl

end Session

end CommandLine

end TapeMachine
