import Backpressure.Json.Fault
set_option autoImplicit false

/-!
# JSON strings

A string is read behind its opening quote. Control characters must be escaped; an
escape is one of eight letters or `u` with four hexadecimal digits, and a character
beyond U+FFFF takes two of the latter, a leading surrogate and a trailing one. A
string that is only skipped is not asked whether its surrogates pair up.
-/

namespace Backpressure.Json

/-- The value of a hexadecimal digit. -/
def hexDigit? (c : Char) : Option Nat :=
  if '0' ≤ c && c ≤ '9' then some (c.toNat - 48)
  else if 'a' ≤ c && c ≤ 'f' then some (c.toNat - 87)
  else if 'A' ≤ c && c ≤ 'F' then some (c.toNat - 55)
  else none

/-- The value of four hexadecimal digits. -/
def hexNumber? (a b c d : Char) : Option Nat := do
  let a ← hexDigit? a
  let b ← hexDigit? b
  let c ← hexDigit? c
  let d ← hexDigit? d
  return ((a * 16 + b) * 16 + c) * 16 + d

/-- The character that an escape of one letter stands for. -/
def letterEscape? (c : Char) : Option Char :=
  if c = '\x22' || c = '\\' || c = '/' then some c
  else if c = 'b' then some '\x08'
  else if c = 'f' then some '\x0c'
  else if c = 'n' then some '\n'
  else if c = 'r' then some '\r'
  else if c = 't' then some '\t'
  else none

/-- The number is that of a leading surrogate. -/
def isLeading (n : Nat) : Bool := 0xD800 ≤ n && n ≤ 0xDBFF

/-- The number is that of a trailing surrogate. -/
def isTrailing (n : Nat) : Bool := 0xDC00 ≤ n && n ≤ 0xDFFF

/-- The character that two surrogates stand for. -/
def paired (leading trailing : Nat) : Char :=
  Char.ofNat (0x10000 + (leading - 0xD800) * 0x400 + (trailing - 0xDC00))

/-- One character of a string, and the text behind it; `none` at the closing quote. -/
def readChar : List Char → Except Fault (Option Char × List Char)
  | [] => .error .malformed
  | '\\' :: 'u' :: a :: b :: c :: d :: rest =>
    match hexNumber? a b c d with
    | none => .error .malformed
    | some n =>
      if isTrailing n then .error .malformed
      else if isLeading n then
        match rest with
        | '\\' :: 'u' :: e :: f :: g :: h :: rest =>
          match hexNumber? e f g h with
          | none => .error .malformed
          | some m => if isTrailing m then .ok (some (paired n m), rest) else .error .malformed
        | _ => .error .malformed
      else .ok (some (Char.ofNat n), rest)
  | '\\' :: c :: rest =>
    match letterEscape? c with
    | none => .error .malformed
    | some e => .ok (some e, rest)
  | c :: rest =>
    if c = '\x22' then .ok (none, rest)
    else if c = '\\' || c < ' ' then .error .malformed
    else .ok (some c, rest)

/-- The characters of a string behind its opening quote, read at most `fuel` times. -/
def readChars : Nat → Step (List Char)
  | 0, _ => .error .malformed
  | fuel + 1, cs =>
    match readChar cs with
    | .error e => .error e
    | .ok (none, rest) => .ok ([], rest)
    | .ok (some c, rest) =>
      match readChars fuel rest with
      | .error e => .error e
      | .ok (text, rest) => .ok (c :: text, rest)

/-- A string behind its opening quote. -/
def readString : Step (List Char) := fun cs => readChars (cs.length + 1) cs

/-- The text behind a string, from behind its opening quote on. -/
def skipString : List Char → Except Fault (List Char)
  | [] => .error .malformed
  | '\\' :: 'u' :: a :: b :: c :: d :: rest =>
    if (hexNumber? a b c d).isSome then skipString rest else .error .malformed
  | '\\' :: c :: rest => if (letterEscape? c).isSome then skipString rest else .error .malformed
  | c :: rest =>
    if c = '\x22' then .ok rest
    else if c = '\\' || c < ' ' then .error .malformed
    else skipString rest

end Backpressure.Json
