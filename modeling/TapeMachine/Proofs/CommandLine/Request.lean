/-
# Reading a command line

What is known of a draft while the words of a command line are read: a word that has no place never
finds one, and what the flags give to the settings is of the kinds that they declare, but for the
empty lists that attached separators leave behind. All of it can be written down again. A request is
a draft in which every word has found its place.
-/

import TapeMachine.CommandLine.Request
import TapeMachine.Proofs.Config.Settings

namespace TapeMachine.CommandLine

namespace Draft

/-- The settings that flags have given are integers and texts where these are declared, or the empty
list that an attached separator leaves behind. They can be written wherever they stand. -/
structure Typed (settings : Settings) (input : Setting) : Prop where
  tapeSize : settings.tapeSize = .list [] ∨ ∃ value, settings.tapeSize = .integer value
  cellWidth : settings.cellWidth = .list [] ∨ ∃ value, settings.cellWidth = .integer value
  input : input = .list [] ∨ input = .nothing ∨ ∃ path, input = .text path
  writable : ∀ found ∈ settings.all, ∀ nesting, found.Writable nesting

theorem readValue_number {flag : Flag} {text : String} {value : Value}
    (hflag : flag = .tapeSize ∨ flag = .cellWidth) (hread : readValue flag text = .ok value) :
    ∃ number, value = .number number ∧ Numeral.integer? text = some number := by
  cases hnumber : Numeral.integer? text with
  | none => rcases hflag with rfl | rfl <;> simp [readValue, hnumber] at hread
  | some number =>
      have hvalue : readValue flag text = .ok (.number number) := by
        rcases hflag with rfl | rfl <;> simp [readValue, hnumber]
      exact ⟨number, Except.ok.inj (hread.symm.trans hvalue), rfl⟩

theorem readValue_text {flag : Flag} {text : String} {value : Value}
    (hread : readValue flag text = .ok value) (hsize : flag ≠ .tapeSize)
    (hwidth : flag ≠ .cellWidth) : value = .text text := by
  cases flag with
  | tapeSize => contradiction
  | cellWidth => contradiction
  | overflow | underflow | atEnd | input | help | stats | verbose =>
      exact (Except.ok.inj hread).symm

theorem readValue_writable {flag : Flag} {text : String} {value : Value}
    (hread : readValue flag text = .ok value) (nesting : Nat) :
    value.setting.Writable nesting := by
  by_cases hflag : flag = .tapeSize ∨ flag = .cellWidth
  · obtain ⟨number, rfl, hnumber⟩ := readValue_number hflag hread
    exact Setting.writable_integer_iff.mpr (Numeral.isShort_of_integer? hnumber)
  · obtain ⟨hsize, hwidth⟩ := not_or.mp hflag
    obtain rfl := readValue_text hread hsize hwidth
    exact .text text

variable {draft next : Draft} {flag : Flag}

/-- What a flag may be given: a value that has been read, or what a separator leaves behind. -/
def Given (flag : Flag) (found : Setting) : Prop :=
  found = .list [] ∨ ∃ text value, readValue flag text = .ok value ∧ found = value.setting

theorem mem_all_assign {found given : Setting}
    (hmem : found ∈ (draft.assign flag given).settings.all) :
    found = given ∨ found ∈ draft.settings.all := by
  cases flag <;> simp only [assign, Settings.all, List.mem_cons] at * <;> tauto

theorem assign_typed (htyped : Typed draft.settings draft.input) {given : Setting}
    (hgiven : Given flag given) :
    Typed (draft.assign flag given).settings (draft.assign flag given).input := by
  have hwritable : ∀ found ∈ (draft.assign flag given).settings.all, ∀ nesting,
      found.Writable nesting := by
    intro found hmem nesting
    rcases mem_all_assign hmem with rfl | hold
    · rcases hgiven with rfl | ⟨text, value, hread, rfl⟩
      · exact .nil
      · exact readValue_writable hread nesting
    · exact htyped.writable found hold nesting
  have hnumber : flag = .tapeSize ∨ flag = .cellWidth →
      given = .list [] ∨ ∃ number, given = .integer number := by
    intro hflag
    refine hgiven.imp_right ?_
    rintro ⟨text, value, hread, rfl⟩
    obtain ⟨number, rfl, -⟩ := readValue_number hflag hread
    exact ⟨number, rfl⟩
  cases flag with
  | tapeSize => exact ⟨hnumber (.inl rfl), htyped.cellWidth, htyped.input, hwritable⟩
  | cellWidth => exact ⟨htyped.tapeSize, hnumber (.inr rfl), htyped.input, hwritable⟩
  | input =>
      have hpath : given = .list [] ∨ given = .nothing ∨ ∃ path, given = .text path := by
        refine hgiven.imp_right ?_
        rintro ⟨text, value, hread, rfl⟩
        obtain rfl := readValue_text hread nofun nofun
        exact .inr ⟨text, rfl⟩
      exact ⟨htyped.tapeSize, htyped.cellWidth, hpath, hwritable⟩
  | overflow | underflow | atEnd | help | stats | verbose =>
      exact ⟨htyped.tapeSize, htyped.cellWidth, htyped.input, hwritable⟩

/-- A draft behind some words: what had no place has none, and the settings are still typed. -/
structure Follows (draft next : Draft) : Prop where
  extras : draft.extras <:+ next.extras
  typed : Typed draft.settings draft.input → Typed next.settings next.input

theorem Follows.refl (draft : Draft) : draft.Follows draft := ⟨List.suffix_refl _, id⟩

theorem Follows.trans {middle : Draft} (hfirst : draft.Follows middle)
    (hsecond : middle.Follows next) : draft.Follows next :=
  ⟨hfirst.extras.trans hsecond.extras, hsecond.typed ∘ hfirst.typed⟩

theorem program_follows (draft : Draft) (program : Option String) :
    draft.Follows { draft with program } := ⟨List.suffix_refl _, id⟩

theorem refuse_follows (draft : Draft) (word : String) : draft.Follows (draft.refuse word) :=
  ⟨List.suffix_cons word _, id⟩

theorem assign_follows {given : Setting} (hgiven : Given flag given) :
    draft.Follows (draft.assign flag given) where
  extras := by cases flag <;> exact List.suffix_refl _
  typed htyped := assign_typed htyped hgiven

theorem takeValue_follows {text : String} (htake : draft.takeValue flag text = .ok next) :
    draft.Follows next := by
  rw [takeValue] at htake
  cases hread : readValue flag text with
  | error error =>
      rw [hread] at htake
      contradiction
  | ok value =>
      have hcheck : checkChoice flag value = .ok value ∨
          ∃ error, checkChoice flag value = .error error := by
        rw [checkChoice]
        cases choices flag with
        | none => exact .inl rfl
        | some choices =>
            by_cases hchoice : value ∈ choices
            · exact .inl (if_pos hchoice)
            · exact .inr ⟨_, if_neg hchoice⟩
      rcases hcheck with hcheck | ⟨error, hcheck⟩
      · simp only [hread, hcheck] at htake
        obtain rfl := Except.ok.inj htake
        exact assign_follows (.inr ⟨text, value, hread, rfl⟩)
      · simp only [hread, hcheck] at htake
        contradiction

theorem takeAttached_follows {text : String} (htake : draft.takeAttached flag text = .ok next) :
    draft.Follows next := by
  rw [takeAttached] at htake
  split at htake
  · obtain rfl := Except.ok.inj htake
    exact assign_follows (.inl rfl)
  · exact takeValue_follows htake

theorem raise_follows (hraise : draft.raise flag = .ok next) : draft.Follows next := by
  cases flag with
  | help => contradiction
  | stats | verbose | tapeSize | cellWidth | overflow | underflow | atEnd | input =>
      obtain rfl := Except.ok.inj hraise
      exact ⟨List.suffix_refl _, id⟩

theorem foldlM_raise_follows {flags : List Flag} (hfold : flags.foldlM raise draft = .ok next) :
    draft.Follows next := by
  induction flags generalizing draft with
  | nil =>
      obtain rfl := Except.ok.inj hfold
      exact .refl draft
  | cons flag flags ih =>
      rw [List.foldlM_cons] at hfold
      cases hraise : draft.raise flag with
      | error stop =>
          rw [hraise] at hfold
          contradiction
      | ok middle =>
          rw [hraise] at hfold
          exact (raise_follows hraise).trans (ih hfold)

theorem raiseAttached_follows {short : Bool} {attached : String}
    (hraise : draft.raiseAttached flag short attached = .ok next) : draft.Follows next := by
  rw [raiseAttached] at hraise
  split at hraise
  · cases hchain : chain flag attached.toList with
    | error error =>
        rw [hchain] at hraise
        contradiction
    | ok flags =>
        rw [hchain] at hraise
        exact foldlM_raise_follows hraise
  · contradiction

theorem read_follows {words : List Word} (hread : draft.read words = .ok next) :
    draft.Follows next := by
  fun_induction read draft words with
  | case1 draft =>
      obtain rfl := Except.ok.inj hread
      exact .refl draft
  | case2 draft text words hnone ih | case4 draft text words hnone ih =>
      exact (program_follows draft _).trans (ih hread)
  | case6 draft text words hplain hnone ih => exact (program_follows draft _).trans (ih hread)
  | case3 draft text words program hsome ih | case5 draft text words program hsome ih =>
      exact ((refuse_follows draft _).trans (refuse_follows _ _)).trans (ih hread)
  | case7 draft text words hplain program hsome ih =>
      exact (refuse_follows draft text).trans (ih hread)
  | case8 draft words hplain ih => exact (refuse_follows draft _).trans (ih hread)
  | case9 draft text words ih => exact (refuse_follows draft text).trans (ih hread)
  | case10 | case12 | case14 | case16 | case17 => contradiction
  | case11 draft flag short attached words hvalue middle htake ih =>
      exact (takeAttached_follows htake).trans (ih hread)
  | case13 draft flag short attached words hplain middle hraise ih =>
      exact (raiseAttached_follows hraise).trans (ih hread)
  | case15 draft flag short hvalue value words middle htake ih =>
      exact (takeValue_follows htake).trans (ih hread)
  | case18 draft flag short words hplain middle hraise ih =>
      exact (raise_follows hraise).trans (ih hread)

/-- Give a plain word its place: it becomes the program, unless there is one. -/
def place (draft : Draft) (text : String) : Draft :=
  match draft.program with
  | none => { draft with program := some text }
  | some _ => draft.refuse text

theorem place_program_ne_none (draft : Draft) (text : String) :
    (draft.place text).program ≠ none := by
  rw [place]
  cases hprogram : draft.program with
  | none => exact Option.some_ne_none text
  | some program => exact fun hnone => Option.some_ne_none program (hprogram.symm.trans hnone)

/-- A plain word that no separator follows is placed. -/
theorem read_plain {words : List Word} (text : String)
    (hnext : ∀ rest, words = .separator :: rest → False) :
    draft.read (.plain text :: words) = (draft.place text).read words := by
  rw [place]
  cases hprogram : draft.program <;> simp only [read, hprogram]

/-- A separator that does not follow the program at once is refused. -/
theorem extras_ne_nil_of_separator {words : List Word} (hprogram : draft.program ≠ none)
    (hread : draft.read (.separator :: words) = .ok next) : next.extras ≠ [] := by
  obtain ⟨program, hprogram⟩ := Option.ne_none_iff_exists'.mp hprogram
  have hrefused : ∃ middle rest, (draft.refuse "--").Follows middle ∧
      middle.read rest = .ok next := by
    cases words with
    | nil => exact ⟨_, [], .refl _, hread⟩
    | cons word words =>
        cases word with
        | plain text =>
            simp only [read, hprogram] at hread
            exact ⟨_, words, refuse_follows _ text, hread⟩
        | separator | unknown text | flag found short attached =>
            rw [read.eq_def] at hread
            exact ⟨_, _, .refl _, hread⟩
  obtain ⟨middle, rest, hmiddle, hnext⟩ := hrefused
  intro hnil
  have hextras := (hmiddle.trans (read_follows hnext)).extras
  rw [hnil] at hextras
  have := List.suffix_nil.mp hextras
  contradiction

end Draft

namespace Request

/-- A draft is finished if nothing in it has been left without a place. -/
theorem finish_eq_ok {draft : Draft} {request : Request} (hfinish : draft.finish = .ok request) :
    draft.extras = [] ∧ request.settings = draft.settings ∧ request.input = draft.input := by
  rw [Draft.finish] at hfinish
  split at hfinish
  · contradiction
  · split at hfinish
    · rename_i hextras
      obtain rfl := Except.ok.inj hfinish
      exact ⟨List.isEmpty_iff.mp hextras, rfl, rfl⟩
    · contradiction

theorem parse_eq_ok_iff {words : List String} {request : Request} :
    parse words = .ok request ↔ ∃ found draft, Word.classifyAll words = .ok found ∧
      Draft.read {} found = .ok draft ∧ draft.finish = .ok request := by
  rw [parse]
  cases Word.classifyAll words with
  | error ambiguity => simp
  | ok found =>
      cases hread : Draft.read {} found with
      | error stop => simp [hread]
      | ok draft => simp [hread]

/-- What is asked for is typed. -/
theorem typed_of_parse {words : List String} {request : Request}
    (hparse : parse words = .ok request) : Draft.Typed request.settings request.input := by
  have hwritable : ∀ found ∈ ({} : Draft).settings.all, ∀ nesting, found.Writable nesting := by
    have hshort : Numeral.isShort 30000 = true ∧ Numeral.isShort 8 = true := by decide
    simp only [Settings.all, List.forall_mem_cons]
    exact ⟨fun _ => Setting.writable_integer_iff.mpr hshort.1,
      fun _ => Setting.writable_integer_iff.mpr hshort.2, fun _ => .text _, fun _ => .text _,
      fun _ => .text _, fun _ hnone => absurd hnone List.not_mem_nil⟩
  have hblank : Draft.Typed ({} : Draft).settings ({} : Draft).input :=
    ⟨.inr ⟨_, rfl⟩, .inr ⟨_, rfl⟩, .inr (.inl rfl), hwritable⟩
  obtain ⟨found, draft, -, hread, hfinish⟩ := parse_eq_ok_iff.mp hparse
  obtain ⟨-, hsettings, hinput⟩ := finish_eq_ok hfinish
  rw [hsettings, hinput]
  exact (Draft.read_follows hread).typed hblank

end Request

end TapeMachine.CommandLine
