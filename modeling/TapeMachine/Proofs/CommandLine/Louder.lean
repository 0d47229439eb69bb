/-
# Flags that change no run

A flag for statistics or for more logging changes nothing else of a request. In front of the other
words it is always read, and wherever it is read between them, the command line without it asks for
the same run.
-/

import TapeMachine.Proofs.CommandLine.Request

namespace TapeMachine.CommandLine

namespace Word

theorem classifyAll_cons {word : String} (hseparator : word ≠ "--") (words : List String) :
    classifyAll (word :: words) =
      match classify word with
      | .error ambiguity => .error ambiguity
      | .ok first => (classifyAll words).map (first :: ·) := by
  rw [classifyAll.eq_3 _ _ hseparator]
  cases classify word with
  | error ambiguity => rfl
  | ok first => cases classifyAll words <;> rfl

theorem classifyRest_ne_separator (word : List Char) : classifyRest word ≠ .separator := by
  rw [classifyRest]
  split <;> simp

theorem classifyLong_ne_separator {word : List Char} {found : Word}
    (hclassify : classifyLong word = .ok found) : found ≠ .separator := by
  rw [classifyLong] at hclassify
  split at hclassify
  split at hclassify
  · obtain rfl := Except.ok.inj hclassify
    exact classifyRest_ne_separator word
  · obtain rfl := Except.ok.inj hclassify
    simp
  · contradiction

theorem classifyShort_ne_separator (letter : Char) (rest word : List Char) :
    classifyShort letter rest word ≠ .separator := by
  rw [classifyShort]
  split
  · simp
  · exact classifyRest_ne_separator word

/-- No word is read as the separator but the separator. -/
theorem classify_ne_separator {word : String} {found : Word}
    (hclassify : classify word = .ok found) : found ≠ .separator := by
  rw [classify.eq_def] at hclassify
  dsimp only at hclassify
  split at hclassify
  · split at hclassify
    · obtain rfl := Except.ok.inj hclassify
      simp
    · split at hclassify
      · obtain rfl := Except.ok.inj hclassify
        simp
      · split at hclassify
        · exact classifyLong_ne_separator hclassify
        · obtain rfl := Except.ok.inj hclassify
          exact classifyShort_ne_separator _ _ _
  · obtain rfl := Except.ok.inj hclassify
    simp

/-- Words in front of which there is no separator are read by themselves. -/
theorem classifyAll_append {front : List String} (hfront : "--" ∉ front) :
    (∃ ambiguity, ∀ back, classifyAll (front ++ back) = .error ambiguity) ∨
      ∃ words, separator ∉ words ∧
        ∀ back, classifyAll (front ++ back) = (classifyAll back).map (words ++ ·) := by
  induction front with
  | nil =>
      refine .inr ⟨[], List.not_mem_nil, fun back => ?_⟩
      rw [List.nil_append]
      cases classifyAll back <;> rfl
  | cons word front ih =>
      have hword : word ≠ "--" := fun heq => hfront (heq ▸ List.mem_cons_self)
      simp only [List.cons_append, classifyAll_cons hword]
      cases hclassify : classify word with
      | error ambiguity => exact .inl ⟨ambiguity, fun back => rfl⟩
      | ok first =>
          rcases ih fun hmem => hfront (.tail word hmem) with
            ⟨ambiguity, herror⟩ | ⟨words, hwords, hback⟩
          · exact .inl ⟨ambiguity, fun back => by simp only [herror, Except.map]⟩
          · refine .inr ⟨first :: words, ?_, fun back => ?_⟩
            · exact List.not_mem_cons_of_ne_of_not_mem (classify_ne_separator hclassify).symm hwords
            · simp only [hback]
              cases classifyAll back <;> rfl

end Word

namespace Draft

section Louden

/-- The draft of a command line with more flags for statistics and logging in front. -/
def louden (stats : Bool) (verbosity : Nat) (draft : Draft) : Draft :=
  { draft with stats := draft.stats || stats, verbosity := draft.verbosity + verbosity }

variable (stats : Bool) (verbosity : Nat) (draft : Draft)

@[simp]
theorem louden_program : (draft.louden stats verbosity).program = draft.program := rfl

theorem assign_louden (flag : Flag) (value : Setting) :
    (draft.louden stats verbosity).assign flag value =
      (draft.assign flag value).louden stats verbosity := by
  cases flag <;> rfl

theorem takeValue_louden (flag : Flag) (value : String) :
    (draft.louden stats verbosity).takeValue flag value =
      (draft.takeValue flag value).map (louden stats verbosity) := by
  rw [takeValue, takeValue]
  cases readValue flag value with
  | error error => rfl
  | ok value =>
      simp only [assign_louden]
      cases checkChoice flag value <;> rfl

theorem takeAttached_louden (flag : Flag) (value : String) :
    (draft.louden stats verbosity).takeAttached flag value =
      (draft.takeAttached flag value).map (louden stats verbosity) := by
  rw [takeAttached, takeAttached, assign_louden, takeValue_louden]
  split <;> rfl

theorem raise_louden (flag : Flag) :
    (draft.louden stats verbosity).raise flag =
      (draft.raise flag).map (louden stats verbosity) := by
  cases flag with
  | verbose => simp [raise, louden, Except.map, Nat.add_right_comm]
  | stats => simp [raise, louden, Except.map]
  | help | tapeSize | cellWidth | overflow | underflow | atEnd | input => rfl

theorem foldlM_raise_louden (flags : List Flag) :
    flags.foldlM raise (draft.louden stats verbosity) =
      (flags.foldlM raise draft).map (louden stats verbosity) := by
  induction flags generalizing draft with
  | nil => rfl
  | cons flag flags ih =>
      rw [List.foldlM_cons, List.foldlM_cons, raise_louden]
      cases draft.raise flag with
      | error stop => rfl
      | ok next => exact ih next

theorem raiseAttached_louden (flag : Flag) (short : Bool) (attached : String) :
    (draft.louden stats verbosity).raiseAttached flag short attached =
      (draft.raiseAttached flag short attached).map (louden stats verbosity) := by
  rw [raiseAttached, raiseAttached]
  split
  · cases chain flag attached.toList with
    | error error => rfl
    | ok flags => exact foldlM_raise_louden stats verbosity draft (flag :: flags)
  · rfl

theorem read_louden (words : List Word) :
    (draft.louden stats verbosity).read words =
      (draft.read words).map (louden stats verbosity) := by
  fun_induction read draft words with
  | case1 draft => rfl
  | case2 draft text words hnone ih | case4 draft text words hnone ih =>
      simp only [read, louden_program, hnone]
      exact ih
  | case6 draft text words hplain hnone ih =>
      simp only [read, louden_program, hnone]
      exact ih
  | case3 draft text words program hsome ih | case5 draft text words program hsome ih =>
      simp only [read, louden_program, hsome]
      exact ih
  | case7 draft text words hplain program hsome ih =>
      simp only [read, louden_program, hsome]
      exact ih
  | case8 draft words hplain ih =>
      simp only [read]
      exact ih
  | case9 draft text words ih => exact ih
  | case10 draft flag short attached words hvalue stop htake =>
      simp only [read, hvalue, if_true, takeAttached_louden, htake]
      rfl
  | case11 draft flag short attached words hvalue next htake ih =>
      simp only [read, hvalue, if_true, takeAttached_louden, htake]
      exact ih
  | case12 draft flag short attached words hplain stop hraise =>
      simp only [read, hplain, raiseAttached_louden, hraise]
      rfl
  | case13 draft flag short attached words hplain next hraise ih =>
      simp only [read, hplain, raiseAttached_louden, hraise]
      exact ih
  | case14 draft flag short hvalue value words stop htake =>
      simp only [read, hvalue, if_true, takeValue_louden, htake]
      rfl
  | case15 draft flag short hvalue value words next htake ih =>
      simp only [read, hvalue, if_true, takeValue_louden, htake]
      exact ih
  | case16 draft flag short words hvalue hmissing =>
      simp only [read, hvalue, if_true]
      rfl
  | case17 draft flag short words hplain stop hraise =>
      rw [read.eq_def]
      simp only [hplain, raise_louden, hraise]
      rfl
  | case18 draft flag short words hplain next hraise ih =>
      rw [read.eq_def]
      simp only [hplain, raise_louden, hraise]
      exact ih

end Louden

section Insert

variable {draft next : Draft} {flag : Flag} {short stats : Bool} {verbosity : Nat}
  (hvalue : flag.takesValue = false)
  (hraise : ∀ draft, raise draft flag = .ok (draft.louden stats verbosity))

include hvalue hraise

theorem read_flag (draft : Draft) (words : List Word) :
    draft.read (.flag flag short none :: words) =
      (draft.read words).map (louden stats verbosity) := by
  rw [read.eq_def]
  simp only [hvalue, hraise]
  exact read_louden stats verbosity draft words

/-- A plain word in front of the flag is placed with the flag and without it. -/
theorem read_plain_append {words back : List Word} {text : String}
    (hplain : ∀ rest, words = .separator :: rest → False)
    (hread : draft.read (.plain text :: words ++ .flag flag short none :: back) = .ok next)
    (hextras : next.extras = []) :
    (draft.place text).read (words ++ .flag flag short none :: back) = .ok next ∧
      draft.read (.plain text :: words ++ back) = (draft.place text).read (words ++ back) := by
  have hflag : ∀ rest, words ++ .flag flag short none :: back = .separator :: rest → False := by
    intro rest hrest
    cases words with
    | nil => cases hrest
    | cons word words =>
        obtain ⟨rfl, -⟩ := List.cons.inj hrest
        exact hplain words rfl
  rw [List.cons_append, read_plain text hflag] at hread
  refine ⟨hread, read_plain text fun rest hrest => ?_⟩
  cases words with
  | cons word words =>
      obtain ⟨rfl, -⟩ := List.cons.inj hrest
      exact hplain words rfl
  | nil =>
      -- The flag stands between a word and the separator, which is refused then.
      obtain rfl : back = .separator :: rest := hrest
      rw [List.nil_append, read_flag hvalue hraise] at hread
      cases hquiet : (draft.place text).read (.separator :: rest) with
      | error stop =>
          rw [hquiet] at hread
          contradiction
      | ok quiet =>
          rw [hquiet] at hread
          obtain rfl := Except.ok.inj hread
          exact extras_ne_nil_of_separator (draft.place_program_ne_none text) hquiet hextras

/-- A flag for statistics or logging can be taken out of a command line, wherever it is. -/
theorem read_insert {front back : List Word} (hfront : Word.separator ∉ front)
    (hread : draft.read (front ++ .flag flag short none :: back) = .ok next)
    (hextras : next.extras = []) :
    ∃ quiet, draft.read (front ++ back) = .ok quiet ∧ next = quiet.louden stats verbosity := by
  fun_induction read draft front with
  | case1 draft =>
      rw [List.nil_append, read_flag hvalue hraise] at hread
      rw [List.nil_append]
      cases hquiet : draft.read back with
      | error stop =>
          rw [hquiet] at hread
          contradiction
      | ok quiet =>
          rw [hquiet] at hread
          exact ⟨quiet, rfl, (Except.ok.inj hread).symm⟩
  | case2 | case3 | case4 | case5 | case8 => simp at hfront
  | case6 draft text words hplain hnone ih =>
      obtain ⟨hplaced, hback⟩ := read_plain_append hvalue hraise hplain hread hextras
      rw [hback]
      rw [place, hnone] at hplaced ⊢
      exact ih (fun hmem => hfront (.tail _ hmem)) hplaced
  | case7 draft text words hplain program hsome ih =>
      obtain ⟨hplaced, hback⟩ := read_plain_append hvalue hraise hplain hread hextras
      rw [hback]
      rw [place, hsome] at hplaced ⊢
      exact ih (fun hmem => hfront (.tail _ hmem)) hplaced
  | case9 draft text words ih => exact ih (fun hmem => hfront (.tail _ hmem)) hread
  | case10 draft other brief attached words htakes stop htake =>
      simp only [List.cons_append, read, htakes, if_true, htake] at hread
      contradiction
  | case11 draft other brief attached words htakes middle htake ih =>
      simp only [List.cons_append, read, htakes, if_true, htake] at hread ⊢
      exact ih (fun hmem => hfront (.tail _ hmem)) hread
  | case12 draft other brief attached words htakes stop hother =>
      simp only [List.cons_append, read, htakes, hother] at hread
      contradiction
  | case13 draft other brief attached words htakes middle hother ih =>
      simp only [List.cons_append, read, htakes, hother] at hread ⊢
      exact ih (fun hmem => hfront (.tail _ hmem)) hread
  | case14 draft other brief htakes value words stop htake =>
      simp only [List.cons_append, read, htakes, if_true, htake] at hread
      contradiction
  | case15 draft other brief htakes value words middle htake ih =>
      simp only [List.cons_append, read, htakes, if_true, htake] at hread ⊢
      exact ih (fun hmem => hfront (.tail _ (.tail _ hmem))) hread
  | case16 draft other brief words htakes hmissing =>
      cases words with
      | nil =>
          simp only [List.cons_append, List.nil_append, read, htakes, if_true] at hread
          contradiction
      | cons word words =>
          cases word with
          | plain value => exact (hmissing value words rfl).elim
          | separator | unknown text | flag found dashed attached =>
              simp only [List.cons_append, read, htakes, if_true] at hread
              contradiction
  | case17 draft other brief words htakes stop hother =>
      rw [List.cons_append, read.eq_def] at hread
      simp only [htakes, hother] at hread
      contradiction
  | case18 draft other brief words htakes middle hother ih =>
      rw [List.cons_append, read.eq_def] at hread
      simp only [htakes, hother] at hread
      rw [List.cons_append, read.eq_def]
      simp only [htakes, hother]
      exact ih (fun hmem => hfront (.tail _ hmem)) hread

end Insert

end Draft

namespace Request

/-- The requests are for the same run, whatever is to be told of it besides its output. -/
structure SameRun (request other : Request) : Prop where
  program : other.program = request.program
  settings : other.settings = request.settings
  input : other.input = request.input

/-- The request with statistics and more logging. -/
def louden (stats : Bool) (verbosity : Nat) (request : Request) : Request :=
  { request with stats := request.stats || stats, verbosity := request.verbosity + verbosity }

theorem finish_louden (stats : Bool) (verbosity : Nat) (draft : Draft) :
    (draft.louden stats verbosity).finish = draft.finish.map (louden stats verbosity) := by
  rw [Draft.finish, Draft.finish, Draft.louden_program]
  cases draft.program with
  | none => rfl
  | some program =>
      change (if draft.extras.isEmpty then _ else _) = _
      cases draft.extras.isEmpty <;> rfl

/-- A word that is a flag for statistics or for more logging, and what it does to a draft. -/
structure Loudens (word : String) (flag : Flag) (short stats : Bool) (verbosity : Nat) : Prop where
  separator : word ≠ "--"
  classify : Word.classify word = .ok (.flag flag short none)
  value : flag.takesValue = false
  raise : ∀ draft, Draft.raise draft flag = .ok (draft.louden stats verbosity)

theorem exists_loudens {word : String} {flag : Flag} {short : Bool}
    (hclassify : Word.classify word = .ok (.flag flag short none))
    (hflag : flag = .stats ∨ flag = .verbose) :
    ∃ stats verbosity, Loudens word flag short stats verbosity := by
  have hseparator : word ≠ "--" := by
    rintro rfl
    obtain ⟨ambiguity, hambiguous⟩ : ∃ ambiguity, Word.classify "--" = .error ambiguity :=
      ⟨_, rfl⟩
    rw [hambiguous] at hclassify
    contradiction
  rcases hflag with rfl | rfl
  · exact ⟨true, 0, hseparator, hclassify, rfl, fun draft => by simp [Draft.raise, Draft.louden]⟩
  · exact ⟨false, 1, hseparator, hclassify, rfl, fun draft => by simp [Draft.raise, Draft.louden]⟩

theorem stats_loudens : Loudens "--stats" .stats false true 0 :=
  ⟨by decide, rfl, rfl, fun draft => by simp [Draft.raise, Draft.louden]⟩

theorem verbose_loudens : Loudens "-v" .verbose true false 1 :=
  ⟨by decide, rfl, rfl, fun draft => by simp [Draft.raise, Draft.louden]⟩

section Loudens

variable {word : String} {flag : Flag} {short stats : Bool} {verbosity : Nat}
  (hloudens : Loudens word flag short stats verbosity)

include hloudens

/-- In front of a command line such a flag is always read. -/
theorem parse_cons (words : List String) :
    parse (word :: words) = (parse words).map (louden stats verbosity) := by
  rw [parse, parse, Word.classifyAll_cons hloudens.separator, hloudens.classify]
  cases Word.classifyAll words with
  | error ambiguity => rfl
  | ok words =>
      have hread : Draft.read {} (.flag flag short none :: words) = _ :=
        Draft.read_flag hloudens.value hloudens.raise {} words
      simp only [Except.map, hread]
      cases Draft.read {} words with
      | error stop => rfl
      | ok draft => exact finish_louden stats verbosity draft

/-- Wherever it is read, the command line without it asks for the same run. -/
theorem parse_insert {front back : List String} (hfront : "--" ∉ front) {companion : Request}
    (hparse : parse (front ++ word :: back) = .ok companion) :
    ∃ request, parse (front ++ back) = .ok request ∧
      companion = request.louden stats verbosity := by
  obtain ⟨found, last, hclassify, hread, hfinish⟩ := parse_eq_ok_iff.mp hparse
  rcases Word.classifyAll_append hfront with ⟨ambiguity, herror⟩ | ⟨words, hwords, hback⟩
  · rw [herror] at hclassify
    contradiction
  · rw [hback, Word.classifyAll_cons hloudens.separator, hloudens.classify] at hclassify
    cases hrest : Word.classifyAll back with
    | error ambiguity =>
        simp only [hrest, Except.map] at hclassify
        contradiction
    | ok rest =>
        simp only [hrest, Except.map] at hclassify
        obtain rfl := Except.ok.inj hclassify
        obtain ⟨quiet, hquiet, rfl⟩ := Draft.read_insert hloudens.value hloudens.raise hwords hread
          (finish_eq_ok hfinish).1
        have hall : Word.classifyAll (front ++ back) = .ok (words ++ rest) := by
          rw [hback, hrest]
          rfl
        rw [finish_louden] at hfinish
        cases hrequest : quiet.finish with
        | error stop =>
            rw [hrequest] at hfinish
            contradiction
        | ok request =>
            rw [hrequest] at hfinish
            exact ⟨request, parse_eq_ok_iff.mpr ⟨_, quiet, hall, hquiet, hrequest⟩,
              (Except.ok.inj hfinish).symm⟩

end Loudens

theorem louden_sameRun (stats : Bool) (verbosity : Nat) (request : Request) :
    request.SameRun (request.louden stats verbosity) := ⟨rfl, rfl, rfl⟩

end Request

end TapeMachine.CommandLine
