import Backpressure.Json.Numbers
import Backpressure.Json.Strings
set_option autoImplicit false

/-!
# JSON values

A value is skipped, read as an integer of some width, or named in a fault when another
kind was expected in its place. Only the outermost part of a value that is named is
looked at: the word, the number or the string itself, the bracket of an array or object.
-/

namespace Backpressure.Json

/-! ## Skipping -/

/-- The text behind a number; its size does not matter. -/
def skipNumber (cs : List Char) : Except Fault (List Char) :=
  let cs := match cs with
    | '-' :: rest => rest
    | cs => cs
  (readNumeral cs).map Prod.snd

/-- What comes next inside brackets. -/
inductive Next where
  /-- The closing bracket, with the text behind it. -/
  | close (rest : List Char)
  /-- Another part, which begins here. -/
  | part (rest : List Char)

/-- Looks for the next part inside brackets; all but the first stand behind a comma. -/
def next (closing : Char) (first : Bool) (cs : List Char) : Except Fault Next :=
  match skipBlanks cs with
  | [] => .error .malformed
  | c :: rest =>
    if c = closing then .ok (.close rest)
    else if first then .ok (.part (c :: rest))
    else if c = ',' then
      match skipBlanks rest with
      | [] => .error .malformed
      | d :: rest => if d = closing then .error .malformed else .ok (.part (d :: rest))
    else .error .malformed

mutual

/-- The text behind a value, for values nested and joined up to `fuel` times. -/
def skipWithin : Nat → List Char → Except Fault (List Char)
  | 0, _ => .error .malformed
  | fuel + 1, cs =>
    match skipBlanks cs with
    | [] => .error .malformed
    | c :: rest =>
      if c = '\x22' then skipString rest
      else if c = '[' then skipElements fuel true rest
      else if c = '\x7b' then skipMembers fuel true rest
      else if c = 't' then expectWord ['r', 'u', 'e'] rest
      else if c = 'f' then expectWord ['a', 'l', 's', 'e'] rest
      else if c = 'n' then expectWord ['u', 'l', 'l'] rest
      else if startsNumber c then skipNumber (c :: rest)
      else .error .malformed

/-- The text behind the rest of an array. -/
def skipElements : Nat → Bool → List Char → Except Fault (List Char)
  | 0, _, _ => .error .malformed
  | fuel + 1, first, cs =>
    match next ']' first cs with
    | .error e => .error e
    | .ok (.close rest) => .ok rest
    | .ok (.part rest) =>
      match skipWithin fuel rest with
      | .error e => .error e
      | .ok rest => skipElements fuel false rest

/-- The text behind the rest of an object. -/
def skipMembers : Nat → Bool → List Char → Except Fault (List Char)
  | 0, _, _ => .error .malformed
  | fuel + 1, first, cs =>
    match next '\x7d' first cs with
    | .error e => .error e
    | .ok (.close rest) => .ok rest
    | .ok (.part rest) =>
      match skipMember fuel rest with
      | .error e => .error e
      | .ok rest => skipMembers fuel false rest

/-- The text behind a key and its value. -/
def skipMember : Nat → List Char → Except Fault (List Char)
  | 0, _ => .error .malformed
  | fuel + 1, cs => do
    let rest ← expectMark '\x22' cs
    let rest ← skipString rest
    let rest ← expectMark ':' rest
    skipWithin fuel rest

end

/-- The text behind a value. A value takes at least one character, and skipping it no
more than three steps for each. -/
def skipValue (cs : List Char) : Except Fault (List Char) := skipWithin (3 * cs.length + 3) cs

/-! ## Naming -/

/-- The fault of a value, which begins here, where another kind is expected. -/
def unexpected (expected : Expected) (cs : List Char) : Fault :=
  let worded (word : List Char) (rest : List Char) (found : Found) : Fault :=
    match expectWord word rest with
    | .error e => e
    | .ok _ => .wrongKind found expected
  match cs with
  | [] => .malformed
  | c :: rest =>
    if c = 'n' then worded ['u', 'l', 'l'] rest .null
    else if c = 't' then worded ['r', 'u', 'e'] rest (.boolean true)
    else if c = 'f' then worded ['a', 'l', 's', 'e'] rest (.boolean false)
    else if c = '[' then .wrongKind .sequence expected
    else if c = '\x7b' then .wrongKind .map expected
    else if c = '\x22' then
      match readString rest with
      | .error e => e
      | .ok (text, _) => .wrongKind (.string text) expected
    else if startsNumber c then
      match readNumber (c :: rest) with
      | .error e => e
      | .ok (.integer z, _) => .wrongKind (.integer z) expected
      | .ok (.floating, _) => .wrongKind .floating expected
    else .malformed

/-! ## Integers -/

/-- The integers of some width. -/
structure Width where
  expected : Expected
  least : Int
  greatest : Int
  deriving DecidableEq, Repr

/-- Signed words of 64 bits. -/
def Width.signed64 : Width := ⟨.signed64, -0x8000_0000_0000_0000, 0x7FFF_FFFF_FFFF_FFFF⟩

/-- Unsigned words of 64 bits. -/
def Width.unsigned64 : Width := ⟨.unsigned64, 0, 0xFFFF_FFFF_FFFF_FFFF⟩

/-- Unsigned words of 32 bits. -/
def Width.unsigned32 : Width := ⟨.unsigned32, 0, 0xFFFF_FFFF⟩

/-- The integer that a number is, if it has the width. -/
def Width.check (w : Width) : Number → Except Fault Int
  | .floating => .error (.wrongKind .floating w.expected)
  | .integer z =>
    if w.least ≤ z && z ≤ w.greatest then .ok z else .error (.outOfRange z w.expected)

/-- An integer of some width. -/
def readInteger (w : Width) : Step Int := fun cs =>
  match skipBlanks cs with
  | [] => .error .malformed
  | c :: rest =>
    if startsNumber c then
      match readNumber (c :: rest) with
      | .error e => .error e
      | .ok (number, rest) =>
        match w.check number with
        | .error e => .error e
        | .ok z => .ok (z, rest)
    else .error (unexpected w.expected (c :: rest))

/-- The text behind a null. -/
def readNull (expected : Expected) (cs : List Char) : Except Fault (List Char) :=
  match skipBlanks cs with
  | 'n' :: rest => expectWord ['u', 'l', 'l'] rest
  | other => .error (unexpected expected other)

/-! ## Members of an object -/

/-- Goes through the members of an object behind its opening brace, at most `fuel` of
them. What is done with a member is told its key and the text behind the key. -/
def readMembers {σ : Type} (member : σ → List Char → Step σ) :
    Nat → Bool → σ → Step σ
  | 0, _, _, _ => .error .malformed
  | fuel + 1, first, s, cs =>
    match next '\x7d' first cs with
    | .error e => .error e
    | .ok (.close rest) => .ok (s, rest)
    | .ok (.part rest) => do
      let rest ← expectMark '\x22' rest
      let (key, rest) ← readString rest
      let (s, rest) ← member s key rest
      readMembers member fuel false s rest

/-- Goes through all members of an object behind its opening brace. -/
def readObject {σ : Type} (member : σ → List Char → Step σ) (s : σ) : Step σ := fun cs =>
  readMembers member (cs.length + 1) true s cs

end Backpressure.Json
