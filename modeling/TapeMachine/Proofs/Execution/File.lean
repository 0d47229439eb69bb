/-
# Whole files

A program file that can be opened is read whole or not at all. That only one byte more than the
limit is asked for does not matter: a request that comes back with more bytes than the limit is
refused, and one that does not has found the end of the file. A negative limit lets no file through,
whichever of its requests it makes: for nothing, for everything, or one that is refused itself. So a
file that is run is run from its first byte to its last.
-/

import Mathlib.Algebra.Group.Nat.Defs
import TapeMachine.Execution

namespace TapeMachine

namespace ProgramFile

variable {contents : List UInt8} {length limit : Int}

theorem request_eq_take (hnonneg : 0 ≤ length) (hroom : length ≤ room) :
    request contents length = .ok (contents.take length.toNat) := by
  have hfits : Word.fits length = true := by
    rw [Word.fits_iff]
    unfold room at hroom
    unfold Word.least Word.greatest
    omega
  have hlongest : ¬ longest < length := by
    unfold longest Word.greatest
    unfold room at hroom
    omega
  have hnegative : ¬ length < -1 := by omega
  have hall : length ≠ -1 := by omega
  simp [request, hfits, hnegative, hall, hlongest, Int.not_lt.mpr hroom]

theorem request_neg_one : request contents (-1) = .ok contents := rfl

theorem request_eq_negative (hword : Word.least ≤ length) (hneg : length < -1) :
    request contents length = .error .negative := by
  have hfits : Word.fits length = true := by
    rw [Word.fits_iff]
    refine ⟨hword, ?_⟩
    unfold Word.greatest
    omega
  simp [request, hfits, hneg]

section

variable {files : FileSystem} {path : String}

theorem read_eq_of_request (hopen : files (Path.normalise path) = .ok contents)
    {bytes : List UInt8} (hrequest : request contents (limit + 1) = .ok bytes) :
    read files path limit =
      if limit < bytes.length then .error (.tooLong (Path.normalise path) limit)
      else .ok bytes := by
  simp [read, hopen, hrequest]

/-- A file within the limit is read whole. -/
theorem read_eq_ok (hopen : files (Path.normalise path) = .ok contents) (hroom : limit < room)
    (hlength : contents.length ≤ limit) : read files path limit = .ok contents := by
  have hrequest : request contents (limit + 1) = .ok contents := by
    rw [request_eq_take (by omega) (by omega), List.take_of_length_le (by omega)]
  rw [read_eq_of_request hopen hrequest, if_neg (by omega)]

/-- A longer file is refused: the byte that is asked for beyond the limit is there. -/
theorem read_eq_tooLong (hopen : files (Path.normalise path) = .ok contents)
    (hroom : limit < room) (hrequested : -2 ≤ limit) (hlength : limit < contents.length) :
    read files path limit = .error (.tooLong (Path.normalise path) limit) := by
  -- One more than this limit is -1, which asks for all bytes and not for a number of them.
  by_cases hall : limit = -2
  · subst hall
    rw [read_eq_of_request hopen request_neg_one, if_pos hlength]
  · have hrequest : request contents (limit + 1) = .ok (contents.take (limit + 1).toNat) := by
      apply request_eq_take
      · omega
      · omega
    have hbeyond : limit < (contents.take (limit + 1).toNat).length := by
      rw [List.length_take]
      omega
    rw [read_eq_of_request hopen hrequest, if_pos hbeyond]

theorem read_eq_negative (hopen : files (Path.normalise path) = .ok contents)
    (hword : Word.least ≤ limit) (hneg : limit < -2) :
    read files path limit = .error (.request .negative) := by
  have hrequest : request contents (limit + 1) = .error .negative :=
    request_eq_negative (by omega) (by omega)
  simp [read, hopen, hrequest]

end

end ProgramFile

namespace Execution

open ProgramFile

/-- A file that can be opened is read if and only if it is within the limit, and then whole. Beyond
the limit it is refused as too long, but for limits below -2, where the request is. A run of the
file is therefore a run of all of its contents, or the file is too long and nothing is run. -/
theorem file_read_whole_or_refused {files : FileSystem} {path : String} {contents : List UInt8}
    (hopen : files (Path.normalise path) = .ok contents) {limit : Int}
    (hlimit : limit.natAbs < 2 ^ 62) :
    ((∃ bytes, read files path limit = .ok bytes) ↔ contents.length ≤ limit) ∧
      (∀ bytes, read files path limit = .ok bytes → bytes = contents) ∧
      (limit < contents.length → -2 ≤ limit →
        read files path limit = .error (.tooLong (Path.normalise path) limit)) ∧
      (limit < -2 → read files path limit = .error (.request .negative)) ∧
      ∀ (host : Host) (accepted : Accepted) (input : Option (List UInt8)) (fuel : Nat),
        (contents.length ≤ sizeLimit ∧ runFile host files path accepted input fuel =
            runSource host (.bytes contents) accepted input fuel) ∨
          (sizeLimit < contents.length ∧ runFile host files path accepted input fuel =
            .error (.read (.tooLong (Path.normalise path) sizeLimit))) := by
  have hroom : limit < room := by
    unfold room
    omega
  have hword : Word.least ≤ limit := by
    unfold Word.least
    omega
  have hwhole : contents.length ≤ limit → read files path limit = .ok contents :=
    read_eq_ok hopen hroom
  have hlong : limit < contents.length → -2 ≤ limit →
      read files path limit = .error (.tooLong (Path.normalise path) limit) :=
    fun hlength hrequested => read_eq_tooLong hopen hroom hrequested hlength
  have hnegative : limit < -2 → read files path limit = .error (.request .negative) :=
    read_eq_negative hopen hword
  have hwithin : ∀ bytes, read files path limit = .ok bytes → contents.length ≤ limit := by
    intro bytes hread
    apply Int.not_lt.mp
    intro hlength
    by_cases hneg : limit < -2
    · exact nomatch (hnegative hneg).symm.trans hread
    · exact nomatch (hlong hlength (Int.not_lt.mp hneg)).symm.trans hread
  refine ⟨?_, ?_, hlong, hnegative, ?_⟩
  · exact ⟨fun ⟨bytes, hread⟩ => hwithin bytes hread, fun hlength => ⟨contents, hwhole hlength⟩⟩
  · intro bytes hread
    exact (Except.ok.inj ((hwhole (hwithin bytes hread)).symm.trans hread)).symm
  · intro host accepted input fuel
    have hsizeLimit : sizeLimit < room := by decide
    by_cases hlength : contents.length ≤ sizeLimit
    · refine .inl ⟨hlength, ?_⟩
      rw [runFile, read_eq_ok hopen hsizeLimit hlength]
    · refine .inr ⟨Int.not_le.mp hlength, ?_⟩
      rw [runFile, read_eq_tooLong hopen hsizeLimit (by decide) (Int.not_le.mp hlength)]

/-- A file of three bytes: a limit of two refuses it. -/
theorem file_read_whole_or_refused_of_three_bytes :
    let files : FileSystem := fun path =>
      if path = "loop.bf" then .ok [0x2B, 0x5B, 0x5D] else .error (.system .notFound)
    files (Path.normalise "loop.bf") = .ok [0x2B, 0x5B, 0x5D] ∧ (2 : Int).natAbs < 2 ^ 62 ∧
      read files "loop.bf" 2 = .error (.tooLong "loop.bf" 2) := by
  intro files
  have hnormal : Path.normalise "loop.bf" = "loop.bf" := by cbv
  have hopen : files (Path.normalise "loop.bf") = .ok [0x2B, 0x5B, 0x5D] := by
    rw [hnormal]
    rfl
  have hlimit : (2 : Int).natAbs < 2 ^ 62 := by decide
  obtain ⟨-, -, hlong, -, -⟩ := file_read_whole_or_refused hopen hlimit
  have hrefused := hlong (by decide) (by decide)
  rw [hnormal] at hrefused
  exact ⟨hopen, hlimit, hrefused⟩

end Execution

end TapeMachine
