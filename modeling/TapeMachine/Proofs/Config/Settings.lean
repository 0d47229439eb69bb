/-
# Settings and what becomes of them

Settings of any kind are refused with an error that shows one of them, or they are accepted. Those
that are accepted are meant to describe a machine: its cells have a largest value, and if there is
room for a tape, the tape has as many zero cells as were asked for, and they hold that value and
none that is larger.

Settings go wrong in four ways, and in no others. The first two concern settings that are to be
refused. A width that is a list breaks the comparison, and an invalid setting that cannot be written
breaks the error that is to show it. The other two concern settings that are accepted. The truth
value `true` passes for a tape of one cell, which is then not made, and a double that equals a width
passes for it, and then the cells have no largest value.
-/

import Mathlib.Algebra.Group.Int.Defs
import Mathlib.Order.Bounds.Basic
import TapeMachine.Config.Settings
import TapeMachine.Proofs.Setting
import TapeMachine.Proofs.Tape.Sound
import TapeMachine.Proofs.Text.Numeral

namespace TapeMachine

namespace Setting

/-- The integer that a setting counts as. The truth values count as one and zero. -/
def integer? : Setting → Option Int
  | integer value => some value
  | boolean true => some 1
  | boolean false => some 0
  | _ => none

/-- A tape size is a positive integer. -/
def IsTapeSize (found : Setting) : Prop := ∃ count, found.integer? = some count ∧ 0 < count

/-- A cell width is 8, 16 or 32, as an integer or as a double. -/
def IsCellWidth (found : Setting) : Prop :=
  ∃ width : Width, found = .integer width.bits ∨
    ∃ value : Binary64, found = .double value ∧ value.equalsNat width.bits = true

def IsBoundary (found : Setting) : Prop := ∃ boundary : Boundary, found = .text boundary.name

def IsEndOfInput (found : Setting) : Prop := ∃ policy : EndOfInput, found = .text policy.name

end Setting

/-- How many cells a size asks for. -/
def AcceptedSize.count : AcceptedSize → Nat
  | cells count _ => count
  | truth => 1

/-- The error says of one of the settings that it is invalid. -/
def SettingsError.IsRefusal : SettingsError → Prop
  | badTapeSize _ | badCellWidth _ | badOverflow _ | badUnderflow _ | badAtEnd _ => True
  | unknownField _ | cellWidthIsList | unwritable _ => False

namespace Settings

/-- Settings none of which is invalid. -/
structure Valid (settings : Settings) : Prop where
  tapeSize : settings.tapeSize.IsTapeSize
  cellWidth : settings.cellWidth.IsCellWidth
  overflow : settings.overflow.IsBoundary
  underflow : settings.underflow.IsBoundary
  atEnd : settings.atEnd.IsEndOfInput

/-- The first invalid setting, in the order in which they are looked at, and the error that is to
show it. A list in the place of the width is left out: it is not looked at. -/
inductive FirstInvalid (settings : Settings) : Setting → (String → SettingsError) → Prop
  | tapeSize (hsize : ¬ settings.tapeSize.IsTapeSize) :
      FirstInvalid settings settings.tapeSize .badTapeSize
  | cellWidth (hsize : settings.tapeSize.IsTapeSize) (hwidth : ¬ settings.cellWidth.IsCellWidth)
      (hlist : ∀ items, settings.cellWidth ≠ .list items) :
      FirstInvalid settings settings.cellWidth .badCellWidth
  | overflow (hsize : settings.tapeSize.IsTapeSize) (hwidth : settings.cellWidth.IsCellWidth)
      (hoverflow : ¬ settings.overflow.IsBoundary) :
      FirstInvalid settings settings.overflow .badOverflow
  | underflow (hsize : settings.tapeSize.IsTapeSize) (hwidth : settings.cellWidth.IsCellWidth)
      (hoverflow : settings.overflow.IsBoundary) (hunderflow : ¬ settings.underflow.IsBoundary) :
      FirstInvalid settings settings.underflow .badUnderflow
  | atEnd (hsize : settings.tapeSize.IsTapeSize) (hwidth : settings.cellWidth.IsCellWidth)
      (hoverflow : settings.overflow.IsBoundary) (hunderflow : settings.underflow.IsBoundary)
      (hatEnd : ¬ settings.atEnd.IsEndOfInput) :
      FirstInvalid settings settings.atEnd .badAtEnd

/-- The settings in the order in which they are looked at. -/
def all (settings : Settings) : List Setting :=
  [settings.tapeSize, settings.cellWidth, settings.overflow, settings.underflow, settings.atEnd]

theorem FirstInvalid.mem_all {settings : Settings} {found : Setting}
    {error : String → SettingsError} (hfirst : settings.FirstInvalid found error) :
    found ∈ settings.all := by
  cases hfirst <;> simp [all]

/-- How settings are accepted, or how they are not. -/
inductive Verdict (host : Host) (settings : Settings) : Except SettingsError Accepted → Prop
  | cellWidthIsList {items : List Setting} (hsize : settings.tapeSize.IsTapeSize)
      (hwidth : settings.cellWidth = .list items) :
      Verdict host settings (.error .cellWidthIsList)
  | refused {found : Setting} {error : String → SettingsError}
      (hfirst : settings.FirstInvalid found error) :
      Verdict host settings (.error (refusal host found error))
  | accepted {accepted : Accepted} (hvalid : settings.Valid)
      (hsize : acceptSize host settings.tapeSize = .ok accepted.tapeSize)
      (hwidth : acceptWidth host settings.cellWidth =
        .ok (accepted.width, accepted.widthIsDouble)) :
      Verdict host settings (.ok accepted)

variable {host : Host} {found : Setting}

theorem acceptSize_integer {value : Int} {size : AcceptedSize}
    (haccept : acceptSize host (.integer value) = .ok size) :
    ∃ count pos, size = .cells count pos := by
  rw [acceptSize] at haccept
  split at haccept
  · exact ⟨_, _, (Except.ok.inj haccept).symm⟩
  · contradiction

theorem acceptSize_eq_ok {size : AcceptedSize} (haccept : acceptSize host found = .ok size) :
    found.integer? = some (size.count : Int) ∧ 0 < size.count := by
  rw [acceptSize.eq_def] at haccept
  split at haccept
  · split at haccept
    next hpos =>
      obtain rfl := Except.ok.inj haccept
      rw [AcceptedSize.count, Int.toNat_of_nonneg (by omega)]
      exact ⟨rfl, by omega⟩
    next => contradiction
  · obtain rfl := Except.ok.inj haccept
    exact ⟨rfl, Nat.one_pos⟩
  · contradiction

theorem isTapeSize_of_acceptSize {size : AcceptedSize}
    (haccept : acceptSize host found = .ok size) : found.IsTapeSize := by
  obtain ⟨hcount, hpos⟩ := acceptSize_eq_ok haccept
  exact ⟨size.count, hcount, Int.natCast_pos.mpr hpos⟩

theorem acceptSize_eq_error {error : SettingsError}
    (hrefused : acceptSize host found = .error error) :
    error = refusal host found .badTapeSize ∧ ¬ found.IsTapeSize := by
  rw [acceptSize.eq_def] at hrefused
  split at hrefused
  next value =>
    split at hrefused
    next => contradiction
    next hneg =>
      refine ⟨(Except.error.inj hrefused).symm, ?_⟩
      rintro ⟨count, hcount, hpos⟩
      obtain rfl := Option.some.inj hcount
      exact hneg hpos
  next => contradiction
  next hinteger htrue =>
    refine ⟨(Except.error.inj hrefused).symm, ?_⟩
    rintro ⟨count, hcount, hpos⟩
    match found, hcount with
    | .integer value, _ => exact hinteger value rfl
    | .boolean true, _ => exact htrue rfl
    | .boolean false, hcount =>
        obtain rfl := Option.some.inj hcount
        contradiction

theorem eq_true_of_acceptSize (haccept : acceptSize host found = .ok .truth) :
    found = .boolean true := by
  rw [acceptSize.eq_def] at haccept
  split at haccept
  · split at haccept
    · have htruth := Except.ok.inj haccept
      contradiction
    · contradiction
  · rfl
  · contradiction

theorem ofBits?_eq_some_iff {value : Int} {width : Width} :
    Width.ofBits? value = some width ↔ value = width.bits := by
  constructor
  · intro hwidth
    unfold Width.ofBits? at hwidth
    split at hwidth
    · obtain rfl := Option.some.inj hwidth
      rfl
    · obtain rfl := Option.some.inj hwidth
      rfl
    · obtain rfl := Option.some.inj hwidth
      rfl
    · contradiction
  · rintro rfl
    cases width <;> rfl

/-- A width is given as the number of its bits, or as a double. -/
theorem acceptWidth_eq_ok {width : Width} {isDouble : Bool}
    (haccept : acceptWidth host found = .ok (width, isDouble)) :
    if isDouble then ∃ value : Binary64, found = .double value ∧ value.equalsNat width.bits = true
    else found = .integer width.bits := by
  rw [acceptWidth.eq_def] at haccept
  split at haccept
  · contradiction
  · split at haccept
    next hbits =>
      obtain ⟨rfl, rfl⟩ := Prod.ext_iff.mp (Except.ok.inj haccept)
      exact congrArg Setting.integer (ofBits?_eq_some_iff.mp hbits)
    next => contradiction
  · split at haccept
    next hequals =>
      obtain ⟨rfl, rfl⟩ := Prod.ext_iff.mp (Except.ok.inj haccept)
      have hfound := List.find?_some hequals
      exact ⟨_, rfl, hfound⟩
    next => contradiction
  · contradiction

theorem isCellWidth_of_acceptWidth {width : Width} {isDouble : Bool}
    (haccept : acceptWidth host found = .ok (width, isDouble)) : found.IsCellWidth := by
  have hkind := acceptWidth_eq_ok haccept
  cases isDouble with
  | true => exact ⟨width, .inr hkind⟩
  | false => exact ⟨width, .inl hkind⟩

/-- A list is the only width that breaks the comparison; all others are refused as widths. -/
theorem acceptWidth_eq_error {error : SettingsError}
    (hrefused : acceptWidth host found = .error error) :
    (error = .cellWidthIsList ∧ ∃ items, found = .list items) ∨
      error = refusal host found .badCellWidth ∧ ¬ found.IsCellWidth ∧
        ∀ items, found ≠ .list items := by
  rw [acceptWidth.eq_def] at hrefused
  split at hrefused
  next items => exact .inl ⟨(Except.error.inj hrefused).symm, items, rfl⟩
  next value =>
    split at hrefused
    next => contradiction
    next hnone =>
      refine .inr ⟨(Except.error.inj hrefused).symm, ?_, nofun⟩
      rintro ⟨width, hinteger | ⟨_, hdouble, -⟩⟩
      · obtain rfl := Setting.integer.inj hinteger
        exact nomatch hnone.symm.trans (ofBits?_eq_some_iff.mpr rfl)
      · contradiction
  next value =>
    split at hrefused
    next => contradiction
    next hnone =>
      refine .inr ⟨(Except.error.inj hrefused).symm, ?_, nofun⟩
      rintro ⟨width, hinteger | ⟨_, hdouble, hequals⟩⟩
      · contradiction
      · obtain rfl := Setting.double.inj hdouble
        have hmem : width ∈ [Width.eight, .sixteen, .thirtyTwo] := by cases width <;> decide
        exact List.find?_eq_none.mp hnone width hmem hequals
  next hlist hinteger hdouble =>
    refine .inr ⟨(Except.error.inj hrefused).symm, ?_, fun items => hlist items⟩
    rintro ⟨width, rfl | ⟨value, rfl, -⟩⟩
    · exact hinteger _ rfl
    · exact hdouble _ rfl

theorem boundary?_eq_some_iff {boundary : Boundary} :
    boundary? found = some boundary ↔ found = .text boundary.name := by
  constructor
  · intro hboundary
    unfold boundary? Boundary.ofName? at hboundary
    split at hboundary
    · split at hboundary
      · obtain rfl := Option.some.inj hboundary
        rfl
      · obtain rfl := Option.some.inj hboundary
        rfl
      · contradiction
    · contradiction
  · rintro rfl
    cases boundary <;> rfl

theorem endOfInput?_eq_some_iff {policy : EndOfInput} :
    endOfInput? found = some policy ↔ found = .text policy.name := by
  constructor
  · intro hpolicy
    unfold endOfInput? EndOfInput.ofName? at hpolicy
    split at hpolicy
    · split at hpolicy
      · obtain rfl := Option.some.inj hpolicy
        rfl
      · obtain rfl := Option.some.inj hpolicy
        rfl
      · obtain rfl := Option.some.inj hpolicy
        rfl
      · contradiction
    · contradiction
  · rintro rfl
    cases policy <;> rfl

theorem not_isBoundary (hnone : boundary? found = none) : ¬ found.IsBoundary := by
  rintro ⟨boundary, hname⟩
  exact nomatch hnone.symm.trans (boundary?_eq_some_iff.mpr hname)

theorem not_isEndOfInput (hnone : endOfInput? found = none) : ¬ found.IsEndOfInput := by
  rintro ⟨policy, hname⟩
  exact nomatch hnone.symm.trans (endOfInput?_eq_some_iff.mpr hname)

theorem accept_verdict (host : Host) (settings : Settings) :
    Verdict host settings (settings.accept host) := by
  rw [accept]
  cases hsize : acceptSize host settings.tapeSize with
  | error error =>
      obtain ⟨rfl, hinvalid⟩ := acceptSize_eq_error hsize
      exact .refused (.tapeSize hinvalid)
  | ok size =>
      have htape := isTapeSize_of_acceptSize hsize
      cases hwidth : acceptWidth host settings.cellWidth with
      | error error =>
          rcases acceptWidth_eq_error hwidth with ⟨rfl, items, hlist⟩ | ⟨rfl, hinvalid, hlist⟩
          · exact .cellWidthIsList htape hlist
          · exact .refused (.cellWidth htape hinvalid hlist)
      | ok width =>
          have hcell := isCellWidth_of_acceptWidth hwidth
          cases hoverflow : boundary? settings.overflow with
          | none => exact .refused (.overflow htape hcell (not_isBoundary hoverflow))
          | some overflow =>
              have hover : settings.overflow.IsBoundary :=
                ⟨overflow, boundary?_eq_some_iff.mp hoverflow⟩
              cases hunderflow : boundary? settings.underflow with
              | none => exact .refused (.underflow htape hcell hover (not_isBoundary hunderflow))
              | some underflow =>
                  have hunder : settings.underflow.IsBoundary :=
                    ⟨underflow, boundary?_eq_some_iff.mp hunderflow⟩
                  cases hatEnd : endOfInput? settings.atEnd with
                  | none =>
                      exact .refused (.atEnd htape hcell hover hunder (not_isEndOfInput hatEnd))
                  | some atEnd =>
                      have hend : settings.atEnd.IsEndOfInput :=
                        ⟨atEnd, endOfInput?_eq_some_iff.mp hatEnd⟩
                      exact .accepted ⟨htape, hcell, hover, hunder, hend⟩ hsize hwidth

/-- No other setting is the first. -/
theorem FirstInvalid.unique {settings : Settings} {other : Setting}
    {error otherError : String → SettingsError} (hfirst : settings.FirstInvalid found error)
    (hother : settings.FirstInvalid other otherError) : other = found ∧ otherError = error := by
  cases hfirst <;> cases hother <;> first | exact ⟨rfl, rfl⟩ | contradiction

/-- Where a setting is invalid, not all of them are valid. -/
theorem FirstInvalid.not_valid {settings : Settings} {error : String → SettingsError}
    (hfirst : settings.FirstInvalid found error) : ¬ settings.Valid := by
  intro hvalid
  cases hfirst with
  | tapeSize hinvalid => exact hinvalid hvalid.tapeSize
  | cellWidth _ hinvalid => exact hinvalid hvalid.cellWidth
  | overflow _ _ hinvalid => exact hinvalid hvalid.overflow
  | underflow _ _ _ hinvalid => exact hinvalid hvalid.underflow
  | atEnd _ _ _ _ hinvalid => exact hinvalid hvalid.atEnd

/-- An invalid setting is refused if it can be written. -/
theorem FirstInvalid.isRefusal_iff {settings : Settings} {error : String → SettingsError}
    (hfirst : settings.FirstInvalid found error) (host : Host) :
    (refusal host found error).IsRefusal ↔ found.Writable host.nesting := by
  rw [← Setting.exists_write_iff, refusal]
  cases found.write host.nesting with
  | error reason => exact iff_of_false id nofun
  | ok shown =>
      refine iff_of_true ?_ ⟨shown, rfl⟩
      cases hfirst <;> trivial

theorem not_isTapeSize_integer {value : Int} (hvalue : value ≤ 0) :
    ¬ (Setting.integer value).IsTapeSize := by
  rintro ⟨count, hcount, hpos⟩
  obtain rfl := Option.some.inj hcount
  exact Int.not_lt.mpr hvalue hpos

/-- A list is no width. -/
theorem not_isCellWidth_list (items : List Setting) : ¬ (Setting.list items).IsCellWidth := by
  rintro ⟨width, hinteger | ⟨value, hdouble, -⟩⟩
  · contradiction
  · contradiction

end Settings

namespace Tape

/-- A new tape has zeros in all of its cells, and `largest` is the largest value that can be stored
in a cell and read again. -/
structure Fresh (width : Width) (count largest : Nat) (tape : Tape) : Prop where
  size_eq : tape.size = count
  eq_zero : ∀ cell ∈ tape.cells, cell = 0
  isGreatest : IsGreatest {value | ∃ given after, tape.write width given = .done () after ∧
    after.read = .ok value} largest

variable {config : Config} {tape : Tape}

/-- What is read after a value has been stored. -/
theorem Sound.read_write (hsound : tape.Sound config) (given : Int) :
    ∃ after, tape.write config.width given = .done () after ∧
      after.read = .ok (config.width.wrap given) := by
  have hput := hsound.put (config.width.wrap_le_largest given)
  refine ⟨_, hsound.write_eq _ _, ?_⟩
  rw [hput.read_eq, hsound.current_put]

theorem Sound.isGreatest_largest (hsound : tape.Sound config) :
    IsGreatest {value | ∃ given after, tape.write config.width given = .done () after ∧
      after.read = .ok value} config.width.largest := by
  constructor
  · obtain ⟨after, hwrite, hread⟩ := hsound.read_write config.width.largest
    rw [Width.wrap_of_le_largest (Nat.le_refl _)] at hread
    exact ⟨_, after, hwrite, hread⟩
  · rintro value ⟨given, after, hwrite, hread⟩
    obtain ⟨other, hother, hvalue⟩ := hsound.read_write given
    obtain ⟨-, rfl⟩ := Attempt.done.inj (hwrite.symm.trans hother)
    obtain rfl := Except.ok.inj (hread.symm.trans hvalue)
    exact config.width.wrap_le_largest given

theorem blank_fresh (config : Config) :
    (blank config.tapeSize).Fresh config.width config.tapeSize config.width.largest where
  size_eq := Array.size_replicate
  eq_zero := fun _ hcell => (Array.mem_replicate.mp hcell).2
  isGreatest := (blank_sound config).isGreatest_largest

end Tape

/-- Accepted settings are built as they were asked for. The cells have the largest value of their
bits, and if there is room for the tape, there is a configuration with a new tape of that many
cells, of which this is the largest value that can be stored. -/
structure Accepted.Builds (host : Host) (accepted : Accepted) (tapeSize cellWidth : Setting) :
    Prop where
  size_eq : tapeSize.integer? = some (accepted.tapeSize.count : Int)
  width_eq : cellWidth.integer? = some (accepted.width.bits : Int)
  largestCell_eq : accepted.largestCell = .ok (2 ^ accepted.width.bits - 1)
  config_eq : obstacle? host accepted.tapeSize.count accepted.width = none →
    ∃ config, accepted.config host = .ok config ∧ config.width = accepted.width ∧
      (Tape.blank config.tapeSize).Fresh config.width accepted.tapeSize.count
        (2 ^ accepted.width.bits - 1)

/-- There is always room for one cell. -/
theorem Accepted.obstacle?_one (host : Host) (width : Width) : obstacle? host 1 width = none := by
  have hbytes : width.bytes ≤ 4 := by cases width <;> decide
  have hfits : Word.fits (1 * width.bytes : Nat) = true := by cases width <;> decide
  have hroom : ¬ host.memory < 1 * width.bytes := by
    have := host.cell_le_memory
    omega
  rw [obstacle?, if_neg (by decide), if_neg (by simp only [hfits]; decide), if_neg hroom]

namespace Accepted

variable {host : Host} {accepted : Accepted} {tapeSize cellWidth : Setting}

/-- The configuration of accepted settings that give their size and their width as integers. -/
theorem config_eq_ok {count : Nat} {pos : 0 < count} (hcells : accepted.tapeSize = .cells count pos)
    (hplain : accepted.widthIsDouble = false) (hroom : obstacle? host count accepted.width = none) :
    accepted.config host = .ok ⟨count, pos, accepted.width, accepted.overflow, accepted.underflow,
      accepted.atEnd⟩ := by
  rw [config, hcells]
  simp only [hroom, hplain]
  rfl

theorem builds_of_plain {count : Nat} {pos : 0 < count}
    (hsize : tapeSize.integer? = some (accepted.tapeSize.count : Int))
    (hcells : accepted.tapeSize = .cells count pos)
    (hwidth : cellWidth = .integer accepted.width.bits) (hplain : accepted.widthIsDouble = false) :
    accepted.Builds host tapeSize cellWidth where
  size_eq := hsize
  width_eq := by rw [hwidth, Setting.integer?]
  largestCell_eq := by
    rw [largestCell, hplain, ← Width.largest_eq_two_pow_sub_one]
    rfl
  config_eq := by
    intro hroom
    rw [hcells, AcceptedSize.count] at hroom
    refine ⟨_, config_eq_ok hcells hplain hroom, rfl, ?_⟩
    rw [hcells, ← Width.largest_eq_two_pow_sub_one]
    exact Tape.blank_fresh _

theorem not_builds_of_truth (htruth : accepted.tapeSize = .truth) :
    ¬ accepted.Builds host tapeSize cellWidth := by
  intro hbuilds
  have hroom : obstacle? host accepted.tapeSize.count accepted.width = none := by
    rw [htruth]
    exact obstacle?_one _ _
  obtain ⟨config, hconfig, -⟩ := hbuilds.config_eq hroom
  rw [Accepted.config, htruth] at hconfig
  contradiction

theorem not_builds_of_double (hdouble : accepted.widthIsDouble = true) :
    ¬ accepted.Builds host tapeSize cellWidth := by
  intro hbuilds
  have hlargest := hbuilds.largestCell_eq
  rw [largestCell, hdouble] at hlargest
  contradiction

end Accepted

namespace Settings

/-- Settings are honoured if they are refused with an error that says which of them is invalid, or
if what they ask for is built. -/
def Honoured (host : Host) (settings : Settings) : Prop :=
  match settings.accept host with
  | .error error => error.IsRefusal
  | .ok accepted => accepted.Builds host settings.tapeSize settings.cellWidth

/-- Settings that are neither refused as invalid nor built. -/
inductive Mishandled (host : Host) (settings : Settings) : Prop
  /-- The tape size, which is looked at first, is valid, and the width is a list. -/
  | listWidth {items : List Setting} (hsize : settings.tapeSize.IsTapeSize)
      (hwidth : settings.cellWidth = .list items)
  /-- The first invalid setting has an integer of too many digits, or lists in too many lists. -/
  | unwritable {found : Setting} {error : String → SettingsError}
      (hfirst : settings.FirstInvalid found error) (hfound : ¬ found.Writable host.nesting)
  /-- All settings are valid, and the tape size is `true`. -/
  | truth (hvalid : settings.Valid) (hsize : settings.tapeSize = .boolean true)
  /-- All settings are valid, and the width is a double. -/
  | doubleWidth {value : Binary64} (hvalid : settings.Valid)
      (hwidth : settings.cellWidth = .double value)

variable {host : Host} {settings : Settings}

theorem Mishandled.not_honoured (hmishandled : settings.Mishandled host) :
    ¬ settings.Honoured host := by
  have hverdict := settings.accept_verdict host
  rw [Honoured]
  cases haccept : settings.accept host with
  | error error =>
      rw [haccept] at hverdict
      cases hverdict with
      | cellWidthIsList => exact id
      | refused hrefused =>
          cases hmishandled with
          | unwritable hfirst hfound =>
              obtain ⟨rfl, rfl⟩ := hfirst.unique hrefused
              exact mt (hfirst.isRefusal_iff host).mp hfound
          | listWidth hsize hwidth =>
              cases hrefused with
              | tapeSize hinvalid => exact absurd hsize hinvalid
              | cellWidth _ _ hlist => exact absurd hwidth (hlist _)
              | overflow _ hvalid | underflow _ hvalid | atEnd _ hvalid =>
                  rw [hwidth] at hvalid
                  exact absurd hvalid (not_isCellWidth_list _)
          | truth hvalid | doubleWidth hvalid => exact absurd hvalid hrefused.not_valid
  | ok accepted =>
      rw [haccept] at hverdict
      cases hverdict with
      | accepted hvalid hsize hwidth =>
          cases hmishandled with
          | listWidth _ hlist =>
              have hcell := hvalid.cellWidth
              rw [hlist] at hcell
              exact absurd hcell (not_isCellWidth_list _)
          | unwritable hfirst => exact absurd hvalid hfirst.not_valid
          | truth _ htruth =>
              rw [htruth] at hsize
              exact Accepted.not_builds_of_truth (Except.ok.inj hsize).symm
          | doubleWidth _ hdouble =>
              refine Accepted.not_builds_of_double ?_
              have hkind := acceptWidth_eq_ok hwidth
              cases hisDouble : accepted.widthIsDouble with
              | true => rfl
              | false =>
                  rw [hisDouble, hdouble, if_neg Bool.false_ne_true] at hkind
                  contradiction

theorem honoured_of_not_mishandled (hproper : ¬ settings.Mishandled host) :
    settings.Honoured host := by
  have hverdict := settings.accept_verdict host
  rw [Honoured]
  cases haccept : settings.accept host with
  | error error =>
      rw [haccept] at hverdict
      cases hverdict with
      | cellWidthIsList hsize hwidth => exact absurd (.listWidth hsize hwidth) hproper
      | refused hfirst =>
          refine (hfirst.isRefusal_iff host).mpr ?_
          by_contra hfound
          exact hproper (.unwritable hfirst hfound)
  | ok accepted =>
      rw [haccept] at hverdict
      cases hverdict with
      | accepted hvalid hsize hwidth =>
          have hkind := acceptWidth_eq_ok hwidth
          have hplain : ¬ accepted.widthIsDouble = true := by
            intro hdouble
            rw [if_pos hdouble] at hkind
            obtain ⟨value, hvalue, -⟩ := hkind
            exact hproper (.doubleWidth hvalid hvalue)
          rw [if_neg hplain] at hkind
          cases hcells : accepted.tapeSize with
          | cells count pos =>
              exact Accepted.builds_of_plain (acceptSize_eq_ok hsize).1 hcells hkind
                ((Bool.not_eq_true _).mp hplain)
          | truth =>
              rw [hcells] at hsize
              exact absurd (.truth hvalid (eq_true_of_acceptSize hsize)) hproper

/-- All settings are honoured but those with a list for a width, those of which the first that is
invalid cannot be written, and those that are valid with `true` for a tape size or with a double for
a width. -/
theorem honoured_iff_not_mishandled (host : Host) (settings : Settings) :
    settings.Honoured host ↔ ¬ settings.Mishandled host :=
  ⟨fun hhonoured hmishandled => hmishandled.not_honoured hhonoured, honoured_of_not_mishandled⟩

/-- One example of each. The integer has 4301 digits, and the double is 8.0. -/
theorem not_honoured_of_list_of_unwritable_of_truth_of_double :
    ¬ Honoured .least { cellWidth := .list [] } ∧
      ¬ Honoured .least { tapeSize := .integer (-10 ^ Numeral.digitLimit) } ∧
      ¬ Honoured .least { overflow := .list [.nothing] } ∧
      ¬ Honoured .least { tapeSize := .boolean true } ∧
      ¬ Honoured .least { cellWidth := .double ⟨0x4020000000000000⟩ } := by
  have hsize : (Setting.integer 30000).IsTapeSize := ⟨30000, rfl, by decide⟩
  have hwidth : (Setting.integer 8).IsCellWidth := ⟨.eight, .inl rfl⟩
  have hdouble : (Setting.double ⟨0x4020000000000000⟩).IsCellWidth :=
    ⟨.eight, .inr ⟨_, rfl, by decide⟩⟩
  have hnegative : ¬ (Setting.integer (-10 ^ Numeral.digitLimit)).IsTapeSize :=
    not_isTapeSize_integer (Int.neg_nonpos_of_nonneg (Int.pow_nonneg (by decide)))
  have hlong : ¬ (Setting.integer (-10 ^ Numeral.digitLimit)).Writable 0 := by
    have hten : Int.natAbs 10 = 10 := rfl
    rw [Setting.writable_integer_iff, Numeral.isShort_iff, Int.natAbs_neg, Int.natAbs_pow, hten]
    exact Nat.lt_irrefl _
  have hlist : ¬ (Setting.list [.nothing]).IsBoundary := by
    rintro ⟨boundary, hname⟩
    cases hname
  have hdeep : ¬ (Setting.list [.nothing]).Writable 0 := Setting.not_writable_zero_cons
  have hwrap : (Setting.text "wrap").IsBoundary := ⟨.wrap, rfl⟩
  have htrap : (Setting.text "trap").IsBoundary := ⟨.trap, rfl⟩
  have hzero : (Setting.text "zero").IsEndOfInput := ⟨.zero, rfl⟩
  exact ⟨Mishandled.not_honoured (.listWidth hsize rfl),
    Mishandled.not_honoured (.unwritable (.tapeSize hnegative) hlong),
    Mishandled.not_honoured (.unwritable (.overflow hsize hwidth hlist) hdeep),
    Mishandled.not_honoured (.truth ⟨⟨1, rfl, by decide⟩, hwidth, hwrap, htrap, hzero⟩ rfl),
    Mishandled.not_honoured (.doubleWidth ⟨hsize, hdouble, hwrap, htrap, hzero⟩ rfl)⟩

end Settings

end TapeMachine
