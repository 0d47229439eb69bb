/-
# Mending a program

The bracket that is reported of a program is a loose one, and the first that a survey finds.
Without it a survey finds the same loops and the same other loose brackets, at the positions that
they then have: in front of the bracket all is as before, and behind it nothing has to do with it.
So a program is mended by deleting what is reported as often as it has loose brackets.
-/

import TapeMachine.Proofs.Program.Loaded
import TapeMachine.Proofs.Program.Survey

namespace TapeMachine

namespace Brackets

/-- The ends of a loop, so many positions further on. -/
def further (position : Nat) : Nat × Nat → Nat × Nat :=
  Prod.map (position + ·) (position + ·)

theorem map_further_map_further (first second : Nat) (loops : List (Nat × Nat)) :
    (loops.map (further second)).map (further first) = loops.map (further (first + second)) := by
  rw [List.map_map]
  congr 1
  funext loop
  simp only [further, Function.comp_apply, Prod.map, Nat.add_assoc]

/-- A balanced program adds its loops to a survey and leaves everything else as it is. -/
theorem exists_surveyFrom_append {body : List UInt8} (hbody : Balanced body) :
    ∃ loops : List (Nat × Nat), ∀ rest position waiting,
      surveyFrom (body ++ rest) position waiting =
        (surveyFrom rest (position + body.length) waiting).withLoops
          (loops.map (further position)) := by
  induction hbody with
  | nil => exact ⟨[], fun rest position waiting => rfl⟩
  | @leaf byte body hleaf _ ih =>
      obtain ⟨loops, hsurvey⟩ := ih
      refine ⟨loops.map (further 1), ?_⟩
      intro rest position waiting
      rw [List.cons_append, surveyFrom_leaf _ _ hleaf, hsurvey, map_further_map_further,
        List.length_cons, Nat.add_assoc, Nat.add_comm 1]
  | @loop body after _ _ ihbody ihafter =>
      obtain ⟨inner, hbody⟩ := ihbody
      obtain ⟨outer, hafter⟩ := ihafter
      refine ⟨inner.map (further 1) ++ (0, 1 + body.length) ::
        outer.map (further (1 + body.length + 1)), ?_⟩
      intro rest position waiting
      have hlength : position + (Instruction.loopStart.byte ::
          (body ++ Instruction.loopEnd.byte :: after)).length =
            position + 1 + body.length + 1 + after.length := by
        rw [List.length_cons, List.length_append, List.length_cons]
        omega
      rw [List.cons_append, List.append_assoc, List.cons_append, surveyFrom_loopStart, hbody,
        surveyFrom_loopEnd_cons, hafter, hlength, List.map_append, List.map_cons,
        map_further_map_further, map_further_map_further]
      simp only [Survey.withLoops, further, Prod.map, List.append_assoc, List.cons_append,
        List.nil_append, Nat.add_zero, ← Nat.add_assoc]

/-- Where no closer is loose, a survey goes on with the openers that wait. -/
theorem Waiting.survey_append {stem : List UInt8} {waiting : List Nat}
    (hwaiting : Waiting stem waiting) (rest : List UInt8) :
    survey (stem ++ rest) =
      (surveyFrom rest stem.length waiting).withLoops (survey stem).loops := by
  obtain ⟨loops, hsurvey⟩ : ∃ loops, ∀ rest, survey (stem ++ rest) =
      (surveyFrom rest stem.length waiting).withLoops loops := by
    induction hwaiting with
    | none hcode =>
        obtain ⟨loops, hsurvey⟩ := exists_surveyFrom_append hcode
        refine ⟨loops.map (further 0), fun rest => ?_⟩
        rw [survey, hsurvey, Nat.zero_add]
    | @opener stem body waiting _ hbody ih =>
        obtain ⟨before, hstem⟩ := ih
        obtain ⟨inner, hinner⟩ := exists_surveyFrom_append hbody
        refine ⟨before ++ inner.map (further (stem.length + 1)), fun rest => ?_⟩
        rw [List.append_assoc, List.cons_append, hstem, surveyFrom_loopStart, hinner,
          List.length_append, List.length_cons, Nat.add_assoc, Nat.add_comm 1]
        simp only [Survey.withLoops, List.append_assoc]
  have hstem := hsurvey []
  rw [List.append_nil] at hstem
  have hloops : (survey stem).loops = loops := by
    rw [hstem]
    exact List.append_nil loops
  rw [hsurvey, hloops]

theorem Waiting.survey_eq {stem : List UInt8} {waiting : List Nat}
    (hwaiting : Waiting stem waiting) : survey stem = ⟨(survey stem).loops, waiting⟩ := by
  have hsurvey := hwaiting.survey_append []
  rw [List.append_nil] at hsurvey
  have hloose : (survey stem).loose = waiting := by
    rw [hsurvey]
    rfl
  rw [← hloose]

/-- Code that starts one position earlier is surveyed alike. -/
theorem map_renumber_surveyFrom {removed position : Nat} (hle : removed ≤ position)
    (rest : List UInt8) (waiting : List Nat) :
    (surveyFrom rest (position + 1) waiting).map (renumber removed) =
      surveyFrom rest position (waiting.map (renumber removed)) := by
  have hposition : renumber removed (position + 1) = position := by
    rw [renumber, if_neg (by omega), Nat.add_sub_cancel]
  induction rest generalizing position waiting with
  | nil => rfl
  | cons byte rest ih =>
      have hnext : renumber removed (position + 1 + 1) = position + 1 := by
        rw [renumber, if_neg (by omega), Nat.add_sub_cancel]
      have hlater := fun waiting => ih (Nat.le_succ_of_le hle) waiting hnext
      rcases eq_loopStart_or_eq_loopEnd_or_leaf byte with rfl | rfl | hleaf
      · rw [surveyFrom_loopStart, surveyFrom_loopStart, hlater, List.map_cons, hposition]
      · cases waiting with
        | nil =>
            have hrest := hlater []
            rw [List.map_nil] at hrest ⊢
            rw [surveyFrom_loopEnd_nil, surveyFrom_loopEnd_nil, ← hrest, Survey.withLoose,
              Survey.withLoose, Survey.map, List.map_cons, hposition]
            rfl
        | cons opener waiting =>
            rw [List.map_cons, surveyFrom_loopEnd_cons, surveyFrom_loopEnd_cons, ← hlater,
              Survey.withLoops, Survey.withLoops, Survey.map, List.map_append, List.map_cons,
              Prod.map, hposition]
            rfl
      · rw [surveyFrom_leaf _ _ hleaf, surveyFrom_leaf _ _ hleaf, hlater]

/-- Without the byte behind it, a program is surveyed as it was. -/
theorem map_renumber_survey (stem : List UInt8) :
    (survey stem).map (renumber stem.length) = survey stem := by
  have hplace : ∀ {position : Nat}, position < stem.length →
      renumber stem.length position = position := fun hlt => if_pos hlt
  have hloops : (survey stem).loops.map
      (Prod.map (renumber stem.length) (renumber stem.length)) = (survey stem).loops := by
    refine (List.map_congr_left ?_).trans (List.map_id _)
    rintro ⟨opener, closer⟩ hmem
    have hmatched := mem_loops_survey_iff.mp hmem
    rw [Prod.map_apply, hplace hmatched.closer_lt, hplace (hmatched.lt.trans hmatched.closer_lt)]
    rfl
  have hloose : (survey stem).loose.map (renumber stem.length) = (survey stem).loose := by
    refine (List.map_congr_left ?_).trans (List.map_id _)
    intro position hmem
    exact hplace (List.lt_add_of_mem_findIdxs position (mem_loose_survey_iff.mp hmem).1)
  rw [Survey.map, hloops, hloose]

/-- A byte between two parts of a program only keeps the second part further on. -/
theorem Waiting.survey_append_eq_map {stem : List UInt8} {waiting : List Nat}
    (hwaiting : Waiting stem waiting) (rest : List UInt8) :
    survey (stem ++ rest) = ((surveyFrom rest (stem.length + 1) waiting).withLoops
      (survey stem).loops).map (renumber stem.length) := by
  have hstem := map_renumber_survey stem
  rw [hwaiting.survey_eq, Survey.map, Survey.mk.injEq] at hstem
  rw [hwaiting.survey_append, Survey.withLoops, Survey.withLoops, Survey.map, List.map_append,
    hstem.1]
  have hrest := map_renumber_surveyFrom (Nat.le_refl stem.length) rest waiting
  rw [hstem.2] at hrest
  rw [← hrest]
  rfl

/-- An opener that waits in front of a balanced program is left as it is. -/
theorem surveyFrom_cons_waiting {body : List UInt8} (hbody : Balanced body)
    (position opener : Nat) (waiting : List Nat) :
    surveyFrom body position (opener :: waiting) =
      (surveyFrom body position waiting).withLoose opener := by
  obtain ⟨loops, hsurvey⟩ := exists_surveyFrom_append hbody
  have hinner := hsurvey [] position
  rw [List.append_nil] at hinner
  rw [hinner, hinner]
  rfl

/-- The bracket that cannot be paired is found first of the loose ones, and without it everything
else is found as it was. -/
theorem Unpaired.exists_survey_eq {code : List UInt8} {unmatched : UnmatchedBracket}
    (hunpaired : Unpaired code unmatched) :
    ∃ others : Survey, survey code = others.withLoose unmatched.position ∧
      survey (code.eraseIdx unmatched.position) = others.map (renumber unmatched.position) := by
  have herase : ∀ (stem rest : List UInt8) (byte : UInt8),
      (stem ++ byte :: rest).eraseIdx stem.length = stem ++ rest := by
    intro stem rest byte
    rw [List.eraseIdx_append_of_length_le (Nat.le_refl _), Nat.sub_self, List.eraseIdx_cons_zero]
  cases hunpaired with
  | @stray stem rest hstem =>
      have hwaiting : Waiting stem [] := .none hstem
      refine ⟨_, ?_, (congrArg survey (herase stem rest _)).trans
        (hwaiting.survey_append_eq_map rest)⟩
      rw [hwaiting.survey_append, surveyFrom_loopEnd_nil]
      rfl
  | @unclosed stem body waiting hstem hbody =>
      refine ⟨_, ?_, (congrArg survey (herase stem body _)).trans
        (hstem.survey_append_eq_map body)⟩
      rw [hstem.survey_append, surveyFrom_loopStart, surveyFrom_cons_waiting hbody]
      rfl

/-- A program is balanced if and only if none of its brackets is loose. -/
theorem balanced_iff_loose_eq_nil {code : List UInt8} :
    Balanced code ↔ (survey code).loose = [] := by
  have hspec := pair_spec code
  constructor
  · intro hcode
    rw [(Waiting.none hcode).survey_eq]
  · intro hnothing
    cases hpair : pair code with
    | ok partners =>
        rw [hpair] at hspec
        exact hspec.1
    | error unmatched =>
        rw [hpair] at hspec
        obtain ⟨others, hsurvey, -⟩ := hspec.exists_survey_eq
        rw [hsurvey] at hnothing
        contradiction

/-- A program without the bracket that is reported of it, if there is one. -/
def mend (code : List UInt8) : List UInt8 :=
  match (Source.bytes code).table with
  | .error (.brackets report) => code.eraseIdx report.position.toNat
  | _ => code

theorem mend_of_report {code : List UInt8} {report : BracketReport}
    (htable : table code = .error report) : mend code = code.eraseIdx report.position.toNat := by
  rw [mend, source_table_eq, htable]
  rfl

/-- Mending leaves one loose bracket less. -/
theorem length_loose_mend (code : List UInt8) :
    (survey (mend code)).loose.length = (survey code).loose.length - 1 := by
  have hspec := table_spec code
  cases htable : table code with
  | ok jumps =>
      rw [htable] at hspec
      rw [mend, source_table_eq, htable]
      change (survey code).loose.length = _
      rw [balanced_iff_loose_eq_nil.mp hspec.1]
      rfl
  | error report =>
      rw [htable] at hspec
      obtain ⟨unmatched, hunpaired, rfl⟩ := hspec
      obtain ⟨others, hsurvey, hmended⟩ := hunpaired.exists_survey_eq
      rw [mend_of_report htable]
      change (survey (code.eraseIdx unmatched.position)).loose.length = _
      rw [hmended, hsurvey]
      exact List.length_map _

theorem length_loose_iterate_mend (rounds : Nat) (code : List UInt8) :
    (survey (mend^[rounds] code)).loose.length = (survey code).loose.length - rounds := by
  induction rounds with
  | zero => rfl
  | succ rounds ih => rw [Function.iterate_succ_apply', length_loose_mend, ih, Nat.sub_sub]

/-- The bracket that is reported of a program is one of its loose ones. When it is deleted, all
loops stay loops and all other loose brackets stay loose, at the positions that they then have, and
there is nothing else, so that matched brackets stay matched. Deleting what is reported again and
again leads to a program that loads after as many rounds as there are loose brackets, and not
before. -/
theorem deleting_reported_bracket_mends_one {code : List UInt8} {error : TableError}
    (htable : (Source.bytes code).table = .error error) :
    ∃ (report : BracketReport) (position : Nat),
      error = .brackets report ∧ report.position = position ∧
        mend code = code.eraseIdx position ∧ position ∈ (survey code).loose ∧
        (survey (code.eraseIdx position)).loops = (survey code).loops.map
          (Prod.map (renumber position) (renumber position)) ∧
        (survey (code.eraseIdx position)).loose =
          ((survey code).loose.erase position).map (renumber position) ∧
        (survey (code.eraseIdx position)).loose.length + 1 = (survey code).loose.length ∧
        (∀ opener closer, Matched code opener closer →
          Matched (code.eraseIdx position) (renumber position opener) (renumber position closer)) ∧
        ∀ rounds encoding,
          (∃ program, Program.load (.bytes (mend^[rounds] code)) encoding = .ok program) ↔
            (survey code).loose.length ≤ rounds := by
  have hspec := table_spec code
  have hrounds : ∀ rounds encoding,
      (∃ program, Program.load (.bytes (mend^[rounds] code)) encoding = .ok program) ↔
        (survey code).loose.length ≤ rounds := by
    intro rounds encoding
    rw [Program.exists_load_iff rfl, balanced_iff_loose_eq_nil, ← List.length_eq_zero_iff,
      length_loose_iterate_mend, Nat.sub_eq_zero_iff_le]
  rw [source_table_eq] at htable
  cases hmade : table code with
  | ok jumps =>
      rw [hmade] at htable
      contradiction
  | error report =>
      rw [hmade] at htable hspec
      obtain rfl := Except.error.inj htable
      obtain ⟨unmatched, hunpaired, rfl⟩ := hspec
      obtain ⟨others, hsurvey, hmended⟩ := hunpaired.exists_survey_eq
      refine ⟨_, unmatched.position, rfl, rfl, mend_of_report hmade, ?_, ?_, ?_, ?_, ?_, hrounds⟩
      · rw [hsurvey]
        exact List.mem_cons_self
      · rw [hmended, hsurvey]
        rfl
      · rw [hmended, hsurvey]
        simp [Survey.withLoose, Survey.map]
      · rw [hmended, hsurvey]
        simp [Survey.withLoose, Survey.map]
      · intro opener closer hmatched
        have hloop := mem_loops_survey_iff.mpr hmatched
        rw [hsurvey] at hloop
        rw [← mem_loops_survey_iff, hmended]
        exact List.mem_map_of_mem hloop

/-- A stray closer, an opener that is left open, and a loop inside it. -/
theorem deleting_reported_bracket_mends_one_of_two :
    (Source.bytes [0x5D, 0x5B, 0x5B, 0x2B, 0x5D]).table =
        .error (.brackets (BracketReport.make [0x5D, 0x5B, 0x5B, 0x2B, 0x5D] 0 0x5D)) ∧
      survey [0x5D, 0x5B, 0x5B, 0x2B, 0x5D] = ⟨[(2, 4)], [0, 1]⟩ ∧
      Matched [0x5B, 0x5B, 0x2B, 0x5D] 1 3 ∧
      ∃ program, Program.load (.bytes (mend^[2] [0x5D, 0x5B, 0x5B, 0x2B, 0x5D])) .utf8 =
        .ok program := by
  have htable : (Source.bytes [0x5D, 0x5B, 0x5B, 0x2B, 0x5D]).table =
      .error (.brackets (BracketReport.make [0x5D, 0x5B, 0x5B, 0x2B, 0x5D] 0 0x5D)) := rfl
  have hsurvey : survey [0x5D, 0x5B, 0x5B, 0x2B, 0x5D] = ⟨[(2, 4)], [0, 1]⟩ := by decide
  have hmatched : Matched [0x5D, 0x5B, 0x5B, 0x2B, 0x5D] 2 4 := by
    rw [← mem_loops_survey_iff, hsurvey]
    exact List.mem_cons_self
  obtain ⟨report, position, hreport, hposition, -, -, -, -, -, hkept, hrounds⟩ :=
    deleting_reported_bracket_mends_one htable
  obtain rfl := TableError.brackets.inj hreport
  obtain rfl : 0 = position := Int.ofNat.inj hposition
  refine ⟨htable, hsurvey, hkept 2 4 hmatched, (hrounds 2 .utf8).mpr ?_⟩
  rw [hsurvey]
  exact Nat.le_refl 2

end Brackets

end TapeMachine
