import Backpressure.Policy
import Backpressure.Text.Blank
set_option autoImplicit false

/-!
# Reading policy names

A policy may be named by hand: blanks around the name, the case of ASCII letters
and `-` in place of `_` do not matter. A text without a name and a name that no
policy has are told apart.
-/

namespace Backpressure

/-- Why no policy could be taken from what was given. -/
inductive PolicyFault where
  /-- No policy was given. -/
  | missing
  /-- The given name is no policy's. -/
  | unknown (name : String)
  deriving DecidableEq, Repr, Inhabited

/-- The text of a fault. -/
def PolicyFault.message : PolicyFault → String
  | missing => "write throttle policy must be set"
  | unknown name => "unknown write throttle policy '" ++ name ++ "'"

namespace Policy

/-- A character of a name as canonical names have it: ASCII letters small, `_` for `-`. -/
def canonicalChar (c : Char) : Char :=
  if c = '-' then '_' else c.toLower

/-- The policy that a text names. -/
def parse (text : String) : Except PolicyFault Policy :=
  match Text.trim text.toList with
  | [] => .error .missing
  | word@(_ :: _) =>
    match ofName? (word.map canonicalChar) with
    | some p => .ok p
    | none => .error (.unknown (String.ofList word))

/-- Canonical names are written as they are looked up. -/
theorem map_canonicalChar_name (p : Policy) :
    p.name.toList.map canonicalChar = p.name.toList := by
  cases p <;> decide

end Policy

end Backpressure
