/-
# Code points

A text that comes from outside is a list of code points, in which surrogates may stand alone. A
character is a code point that is no surrogate.
-/

namespace TapeMachine

/-- A Unicode code point, surrogates included. -/
structure CodePoint where
  value : Nat
  value_lt : value < 0x110000
  deriving DecidableEq

namespace CodePoint

def ofChar (char : Char) : CodePoint where
  value := char.toNat
  value_lt := by
    have hvalid : char.toNat.isValidChar := char.valid
    unfold Nat.isValidChar at hvalid
    omega

def ofNat? (value : Nat) : Option CodePoint :=
  if hlt : value < 0x110000 then some ⟨value, hlt⟩ else none

def isSurrogate (point : CodePoint) : Bool :=
  0xD800 ≤ point.value && point.value ≤ 0xDFFF

@[simp]
theorem value_ofChar (char : Char) : (ofChar char).value = char.toNat := rfl

theorem isSurrogate_ofChar (char : Char) : (ofChar char).isSurrogate = false := by
  have hvalid : char.toNat.isValidChar := char.valid
  unfold Nat.isValidChar at hvalid
  change (decide (0xD800 ≤ char.toNat) && decide (char.toNat ≤ 0xDFFF)) = false
  simp only [Bool.and_eq_false_imp, decide_eq_true_eq, decide_eq_false_iff_not]
  omega

end CodePoint

/-- A text as it comes from outside. -/
abbrev Text := List CodePoint

namespace Text

def ofString (text : String) : Text :=
  text.toList.map CodePoint.ofChar

end Text

end TapeMachine
