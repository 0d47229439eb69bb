/-
# Loaded programs

Loading gives a program whose code is balanced and whose table is the jump table of its code. From
a bracket such a program leads to the partner, which is a position of the code.

A table that is made by hand can fall short of this and still be closed: it has an entry for every
byte, and every target is a position of the code.
-/

import TapeMachine.Proofs.Program.JumpTable

namespace TapeMachine

namespace Program

open Brackets

/-- A program as loading makes it. -/
structure Loaded (program : Program) : Prop where
  balanced : Balanced program.code.toList
  jumps : IsJumpTable program.code.toList program.jumps

/-- A program whose jumps stay inside its code. -/
structure Closed (program : Program) : Prop where
  size_eq : program.jumps.size = program.code.size
  target_mem : ∀ (position : Nat) (target : Int), program.jumps[position]? = some (some target) →
    0 ≤ target ∧ target < program.code.size

theorem fetch_ofNat_eq_ok_iff (program : Program) {position : Nat} {byte : UInt8} :
    program.fetch position = .ok byte ↔ program.code[position]? = some byte := by
  by_cases hlt : position < program.code.size
  · simp [fetch, Index.resolve_ofNat hlt, hlt]
  · have hnone : Index.resolve program.code.size position = none :=
      Index.resolve_eq_none_iff.mpr (.inr (by omega))
    simp [fetch, hnone, hlt]

theorem fetch_ofNat (program : Program) {position : Nat} {byte : UInt8}
    (hbyte : program.code.toList[position]? = some byte) : program.fetch position = .ok byte := by
  rwa [fetch_ofNat_eq_ok_iff, ← Array.getElem?_toList]

theorem target_of_entry_some (program : Program) {position : Nat} {destination : Int}
    (hentry : program.jumps[position]? = some (some destination)) :
    program.target position = .ok destination := by
  obtain ⟨hlt, hentry⟩ := Array.getElem?_eq_some_iff.mp hentry
  simp [target, Index.resolve_ofNat hlt, hentry]

theorem target_of_entry_none (program : Program) {position : Nat}
    (hentry : program.jumps[position]? = some none) :
    program.target position = .error (.noTarget position) := by
  obtain ⟨hlt, hentry⟩ := Array.getElem?_eq_some_iff.mp hentry
  simp [target, Index.resolve_ofNat hlt, hentry]

/-- What is loaded is loaded from the code that the source is encoded to. -/
theorem loaded_of_load {source : Source} {encoding : Encoding} {program : Program}
    (hload : load source encoding = .ok program) :
    program.Loaded ∧ source.encode encoding = .ok program.code.toList := by
  rw [load] at hload
  cases hencode : source.encode encoding with
  | error error =>
      rw [hencode] at hload
      contradiction
  | ok code =>
      have hspec := table_spec code
      rw [hencode] at hload
      cases htable : table code with
      | error report =>
          simp only [ofBytes, htable] at hload
          contradiction
      | ok jumps =>
          rw [htable] at hspec
          simp only [ofBytes, htable] at hload
          obtain rfl := Except.ok.inj hload
          exact ⟨⟨hspec.1, hspec.2⟩, rfl⟩

/-- A source loads if and only if its brackets are balanced. -/
theorem exists_load_iff {source : Source} {encoding : Encoding} {code : List UInt8}
    (hencode : source.encode encoding = .ok code) :
    (∃ program, load source encoding = .ok program) ↔ Balanced code := by
  have hspec := Brackets.table_spec code
  constructor
  · rintro ⟨program, hload⟩
    obtain ⟨hloaded, hcode⟩ := loaded_of_load hload
    obtain rfl := Except.ok.inj (hencode.symm.trans hcode)
    exact hloaded.balanced
  · intro hbalanced
    cases htable : Brackets.table code with
    | ok jumps => exact ⟨⟨code.toArray, jumps⟩, by simp only [load, ofBytes, hencode, htable]⟩
    | error report =>
        rw [htable] at hspec
        obtain ⟨unmatched, hunpaired, -⟩ := hspec
        exact absurd hbalanced hunpaired.not_balanced

/-- Code that is not balanced has no program. What has been made of the code is what a source of
these bytes loads. -/
theorem ofBytes_spec (code : List UInt8) (encoding : Encoding) :
    (∃ report, ofBytes code = .error report ∧ ¬ Balanced code) ∨
      ∃ program, ofBytes code = .ok program ∧ load (.bytes code) encoding = .ok program ∧
        program.Loaded ∧ Balanced code := by
  have hencode : Source.encode (.bytes code) encoding = .ok code := rfl
  cases hprogram : ofBytes code with
  | error report =>
      refine .inl ⟨report, rfl, fun hbalanced => ?_⟩
      obtain ⟨program, hload⟩ := (exists_load_iff hencode).mpr hbalanced
      simp only [load, hencode, hprogram] at hload
      contradiction
  | ok program =>
      have hload : load (.bytes code) encoding = .ok program := by
        simp only [load, hencode, hprogram]
      exact .inr ⟨program, rfl, hload, (loaded_of_load hload).1,
        (exists_load_iff hencode).mp ⟨program, hload⟩⟩

namespace Loaded

variable {program : Program}

theorem target_eq (hloaded : program.Loaded) {position partner : Nat}
    (hpartnered : Partnered program.code.toList position partner) :
    program.target position = .ok partner :=
  program.target_of_entry_some (hloaded.jumps.entry_of_partnered hpartnered)

theorem closed (hloaded : program.Loaded) : program.Closed where
  size_eq := by simpa using hloaded.jumps.size_eq
  target_mem position target hentry := by
    obtain ⟨partner, rfl, hpartnered⟩ := (hloaded.jumps.entry_iff position target).mp hentry
    have hlt := hpartnered.symm.lt_length
    rw [Array.length_toList] at hlt
    omega

end Loaded

end Program

end TapeMachine
