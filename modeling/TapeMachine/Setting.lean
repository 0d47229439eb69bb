/-
# Settings

A setting is a value that a caller hands in without a promise about its kind. Error messages show
it in the form in which it would be written down. Not every setting can be: an integer may have too
many digits, and lists may stand in too many others.
-/

import TapeMachine.Decimal.Notation
import TapeMachine.Text.Numeral
import TapeMachine.Text.Quoted

namespace TapeMachine

inductive Setting where
  | integer (value : Int)
  | boolean (value : Bool)
  | double (value : Binary64)
  | text (value : String)
  | nothing
  | list (items : List Setting)

/-- Why a setting cannot be written. -/
inductive WriteError where
  | tooManyDigits
  | tooDeep
  deriving DecidableEq

namespace WriteError

def message : WriteError → String
  | tooManyDigits =>
      s!"Exceeds the limit ({Numeral.digitLimit} digits) for integer string conversion; "
        ++ "use sys.set_int_max_str_digits() to increase the limit"
  | tooDeep => "maximum recursion depth exceeded while getting the repr of an object"

end WriteError

namespace Setting

mutual

/-- The form in which a setting is written down. No more than `nesting` lists may stand around what
is written in it. -/
def write (nesting : Nat) : Setting → Except WriteError String
  | integer value =>
      match Numeral.write? value with
      | some digits => .ok digits
      | none => .error .tooManyDigits
  | boolean true => .ok "True"
  | boolean false => .ok "False"
  | double value => .ok value.write
  | text value => .ok (Quoted.quote value)
  | nothing => .ok "None"
  | list items =>
      match writeAll nesting items with
      | .ok texts => .ok ("[" ++ ", ".intercalate texts ++ "]")
      | .error error => .error error

/-- The items of a list in front of the first that cannot be written, if there is one. -/
def writeAll (nesting : Nat) : List Setting → Except WriteError (List String)
  | [] => .ok []
  | item :: items =>
      match nesting with
      | 0 => .error .tooDeep
      | inner + 1 =>
          match write inner item with
          | .error error => .error error
          | .ok first =>
              match writeAll nesting items with
              | .error error => .error error
              | .ok rest => .ok (first :: rest)

end

end Setting

end TapeMachine
