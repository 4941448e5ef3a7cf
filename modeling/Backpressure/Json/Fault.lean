import Backpressure.Policy
import Backpressure.Text.Decimal
import Backpressure.Text.Quoted
set_option autoImplicit false

/-!
# Reading JSON text

Reading goes from left to right, and the first fault met is the one reported: either
the text is no JSON, or a well-formed value stands where another kind is expected. A
step reader takes a value off the front of a text and gives back the rest.
-/

namespace Backpressure.Json

/-! ## Faults -/

/-- What stands in some place of a text. -/
inductive Found where
  | null
  | boolean (b : Bool)
  | integer (z : Int)
  | floating
  | string (text : List Char)
  | sequence
  | map
  deriving DecidableEq, Repr

/-- What is expected in some place of a text. -/
inductive Expected where
  | signed64
  | unsigned64
  | unsigned32
  | unit
  | duration
  | settings
  deriving DecidableEq, Repr

/-- Why a text could not be read. -/
inductive Fault where
  /-- The text is no JSON, or a value is missing. -/
  | malformed
  /-- A value of one kind stands where another is expected. -/
  | wrongKind (found : Found) (expected : Expected)
  /-- An integer does not fit the width that is expected. -/
  | outOfRange (z : Int) (expected : Expected)
  /-- A name is no policy's. -/
  | unknownVariant (name : List Char)
  /-- A key does not belong into a duration. -/
  | unknownField (key : List Char)
  /-- A key stands twice in an object. -/
  | duplicateField (key : String)
  /-- A key is not in an object. -/
  | missingField (key : String)
  /-- An array for a duration ends after so many elements. -/
  | tooShort (length : Nat)
  /-- Nanoseconds carry over into more seconds than a duration holds. -/
  | overflow
  deriving DecidableEq, Repr

/-- The name of what stands in some place. -/
def Found.text : Found → String
  | null => "null"
  | boolean true => "boolean `true`"
  | boolean false => "boolean `false`"
  | integer z => "integer `" ++ Decimal.signedText z ++ "`"
  | floating => "floating point"
  | string text => "string " ++ String.ofList (Text.quoted text)
  | sequence => "sequence"
  | map => "map"

/-- The name of what is expected. -/
def Expected.text : Expected → String
  | signed64 => "i64"
  | unsigned64 => "u64"
  | unsigned32 => "u32"
  | unit => "unit"
  | duration => "struct Duration"
  | settings => "struct ThrottleSettings"

/-- The names of all policies, as a fault lists them. -/
def policyNames : String :=
  String.intercalate ", " (Policy.all.map fun p => "`" ++ p.name ++ "`")

/-- The text of a fault; a malformed text has none. -/
def Fault.message : Fault → Option String
  | malformed => none
  | wrongKind found expected =>
    some ("invalid type: " ++ found.text ++ ", expected " ++ expected.text)
  | outOfRange z expected =>
    some ("invalid value: " ++ (Found.integer z).text ++ ", expected " ++ expected.text)
  | unknownVariant name =>
    some ("unknown variant `" ++ String.ofList name ++ "`, expected one of " ++ policyNames)
  | unknownField key =>
    some ("unknown field `" ++ String.ofList key ++ "`, expected `secs` or `nanos`")
  | duplicateField key => some ("duplicate field `" ++ key ++ "`")
  | missingField key => some ("missing field `" ++ key ++ "`")
  | tooShort length =>
    some ("invalid length " ++ Decimal.text length ++ ", expected " ++ Expected.duration.text)
  | overflow => some "overflow deserializing Duration"

/-- A step reader: takes a value off the front of a text and gives back the rest. -/
abbrev Step (α : Type) : Type := List Char → Except Fault (α × List Char)

/-! ## Blanks and fixed words -/

/-- The blanks of JSON. -/
def isBlank (c : Char) : Bool := c = ' ' || c = '\n' || c = '\t' || c = '\r'

/-- The text behind leading blanks. -/
def skipBlanks (cs : List Char) : List Char := cs.dropWhile isBlank

/-- The text behind a fixed word. -/
def expectWord : List Char → List Char → Except Fault (List Char)
  | [], cs => .ok cs
  | _ :: _, [] => .error .malformed
  | w :: word, c :: cs => if c = w then expectWord word cs else .error .malformed

/-- The text behind blanks and a mark. -/
def expectMark (mark : Char) (cs : List Char) : Except Fault (List Char) :=
  match skipBlanks cs with
  | c :: rest => if c = mark then .ok rest else .error .malformed
  | [] => .error .malformed

@[simp] theorem expectWord_append (word rest : List Char) :
    expectWord word (word ++ rest) = .ok rest := by
  induction word with
  | nil => rfl
  | cons w word ih => simp [expectWord, ih]

/-- A whole document: a value with blanks around it and nothing else. -/
def document {α : Type} (read : Step α) (text : String) : Except Fault α :=
  match read text.toList with
  | .error e => .error e
  | .ok (a, rest) => if (skipBlanks rest).isEmpty then .ok a else .error .malformed

end Backpressure.Json
