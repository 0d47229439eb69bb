/-
# Which settings can be written

A setting can be written if none of its integers has too many digits and none of its items stands in
too many lists. The text values, the doubles and the truth values are no obstacle, and neither is a
list without items, wherever it stands.
-/

import TapeMachine.Setting

namespace TapeMachine

namespace Setting

/-- A setting whose integers have at most 4300 digits and whose items stand in at most `nesting`
lists. -/
inductive Writable : Nat → Setting → Prop
  | integer {nesting : Nat} {value : Int} (hshort : (Nat.toDigits 10 value.natAbs).length ≤ 4300) :
      Writable nesting (.integer value)
  | boolean {nesting : Nat} (value : Bool) : Writable nesting (.boolean value)
  | double {nesting : Nat} (value : Binary64) : Writable nesting (.double value)
  | text {nesting : Nat} (value : String) : Writable nesting (.text value)
  | nothing {nesting : Nat} : Writable nesting .nothing
  | nil {nesting : Nat} : Writable nesting (.list [])
  | list {nesting : Nat} {items : List Setting} (hitems : ∀ item ∈ items, Writable nesting item) :
      Writable (nesting + 1) (.list items)

theorem writable_integer_iff {nesting : Nat} {value : Int} :
    Writable nesting (.integer value) ↔ Numeral.isShort value = true := by
  rw [Numeral.isShort, decide_eq_true_iff]
  exact ⟨fun | .integer hshort => hshort, .integer⟩

theorem writable_list_iff {nesting : Nat} {items : List Setting} :
    Writable (nesting + 1) (.list items) ↔ ∀ item ∈ items, Writable nesting item := by
  constructor
  · intro hwritable
    cases hwritable with
    | nil => simp
    | list hitems => exact hitems
  · exact .list

theorem not_writable_zero_cons {item : Setting} {items : List Setting} :
    ¬ Writable 0 (.list (item :: items)) := nofun

mutual

/-- Writing fails for the settings that are not writable. -/
theorem exists_write_iff (nesting : Nat) (found : Setting) :
    (∃ written, found.write nesting = .ok written) ↔ found.Writable nesting := by
  match found with
  | integer value =>
      rw [write, Numeral.write?, writable_integer_iff]
      by_cases hshort : Numeral.isShort value = true
      · rw [if_pos hshort]
        exact iff_of_true ⟨_, rfl⟩ hshort
      · rw [if_neg hshort]
        exact iff_of_false nofun hshort
  | boolean true | boolean false => exact iff_of_true ⟨_, by rw [write]⟩ (.boolean _)
  | double value => exact iff_of_true ⟨_, by rw [write]⟩ (.double value)
  | text value => exact iff_of_true ⟨_, by rw [write]⟩ (.text value)
  | nothing => exact iff_of_true ⟨_, by rw [write]⟩ .nothing
  | list items =>
      have hitems : (∃ written, write nesting (.list items) = .ok written) ↔
          ∃ rows, writeAll nesting items = .ok rows := by
        rw [write]
        cases writeAll nesting items with
        | error error => exact iff_of_false nofun nofun
        | ok rows => exact iff_of_true ⟨_, rfl⟩ ⟨rows, rfl⟩
      rw [hitems, exists_writeAll_iff nesting items]

theorem exists_writeAll_iff (nesting : Nat) (items : List Setting) :
    (∃ rows, writeAll nesting items = .ok rows) ↔ Writable nesting (.list items) := by
  match items, nesting with
  | [], nesting => exact iff_of_true ⟨[], by rw [writeAll]⟩ .nil
  | item :: items, 0 =>
      rw [writeAll]
      exact iff_of_false nofun not_writable_zero_cons
  | item :: items, inner + 1 =>
      have hfirst := exists_write_iff inner item
      have hrest := exists_writeAll_iff (inner + 1) items
      rw [writable_list_iff, List.forall_mem_cons, ← hfirst, ← writable_list_iff, ← hrest, writeAll]
      cases write inner item with
      | error error => exact iff_of_false nofun fun ⟨⟨_, hnone⟩, _⟩ => nomatch hnone
      | ok first =>
          cases writeAll (inner + 1) items with
          | error error => exact iff_of_false nofun fun ⟨_, _, hnone⟩ => nomatch hnone
          | ok rest => exact iff_of_true ⟨_, rfl⟩ ⟨⟨first, rfl⟩, rest, rfl⟩

end

end Setting

end TapeMachine
