import Backpressure.Json.Fault
set_option autoImplicit false

/-!
# JSON numbers

A number is a sign, digits without a leading zero, perhaps a fraction and perhaps an
exponent. It is an integer if it has neither fraction nor exponent and fits a signed or
an unsigned word of 64 bits; `-0` and every other number is floating. A floating number
must not exceed every double. To decide that, the leading digits that fit 64 bits and
the power of ten behind them are each rounded to a double, and so is their product.
-/

namespace Backpressure.Json

open Backpressure.Decimal (isDigit)

/-! ## Numerals -/

/-- The parts of a number as written, without its sign. -/
structure Numeral where
  whole : List Char
  fraction : Option (List Char)
  /-- A negative exponent is marked `true`. -/
  exponent : Option (Bool × List Char)
  deriving DecidableEq, Repr

/-- Digits, at least one of them. -/
def readDigits : Step (List Char) := fun cs =>
  match cs.takeWhile isDigit with
  | [] => .error .malformed
  | digits@(_ :: _) => .ok (digits, cs.dropWhile isDigit)

/-- The digits in front of the point; a leading zero stands alone. -/
def readWhole : Step (List Char) := fun cs =>
  match readDigits cs with
  | .ok ('0' :: _ :: _, _) => .error .malformed
  | other => other

/-- A point with digits behind it, if there is one. -/
def readFraction : Step (Option (List Char))
  | '.' :: rest =>
    match readDigits rest with
    | .error e => .error e
    | .ok (digits, rest) => .ok (some digits, rest)
  | cs => .ok (none, cs)

/-- The sign of an exponent; `true` for a negative one. -/
def exponentSign : List Char → Bool × List Char
  | '-' :: rest => (true, rest)
  | '+' :: rest => (false, rest)
  | cs => (false, cs)

/-- An exponent with its sign and digits, if there is one. -/
def readExponent : Step (Option (Bool × List Char))
  | c :: rest =>
    if c = 'e' || c = 'E' then
      let (negative, rest) := exponentSign rest
      match readDigits rest with
      | .error e => .error e
      | .ok (digits, rest) => .ok (some (negative, digits), rest)
    else .ok (none, c :: rest)
  | [] => .ok (none, [])

/-- A number without its sign. -/
def readNumeral : Step Numeral := fun cs => do
  let (whole, cs) ← readWhole cs
  let (fraction, cs) ← readFraction cs
  let (exponent, cs) ← readExponent cs
  return (⟨whole, fraction, exponent⟩, cs)

/-! ## Doubles -/

/-- The double nearest to a natural number; of two that are as near, the one with an
even significand. -/
def nearestDouble (n : Nat) : Nat :=
  if n < 0x20_0000_0000_0000 then n
  else
    let unit := Nat.pow 2 (n.log2 - 52)
    let down := n / unit
    let rest := n % unit
    if unit < 2 * rest || (unit = 2 * rest && down % 2 = 1) then (down + 1) * unit
    else down * unit

/-- A product from here on is rounded beyond every double. -/
def doubleBound : Nat := Nat.pow 2 1024 - Nat.pow 2 970

/-- The product of a number and a power of ten exceeds every double. -/
def exceedsDoubles (significand : Nat) (exponent : Int) : Bool :=
  significand != 0 && 0 ≤ exponent &&
    (308 < exponent ||
      doubleBound ≤ nearestDouble significand * nearestDouble (Nat.pow 10 exponent.toNat))

/-- Appends digits to a number as long as it fits 64 bits; gives back the digits from
the first one on that does not. -/
def gather (significand : Nat) : List Char → Nat × List Char
  | [] => (significand, [])
  | c :: rest =>
    let next := significand * 10 + (c.toNat - '0'.toNat)
    if next < 0x1_0000_0000_0000_0000 then gather next rest else (significand, c :: rest)

namespace Numeral

/-- The leading digits that fit 64 bits, and the power of ten behind them. -/
def scientific (n : Numeral) : Nat × Int :=
  let (significand, dropped) := gather 0 n.whole
  let digits := n.fraction.getD []
  let (significand, unread) := gather significand digits
  let shift : Int := dropped.length - (digits.length - unread.length : Nat)
  match n.exponent with
  | none => (significand, shift)
  | some (true, e) => (significand, shift - Decimal.value e)
  | some (false, e) => (significand, shift + Decimal.value e)

/-- The number exceeds every double. -/
def isTooLarge (n : Numeral) : Bool :=
  let (significand, exponent) := n.scientific
  exceedsDoubles significand exponent

/-- The number has neither fraction nor exponent. -/
def isWhole (n : Numeral) : Bool := n.fraction.isNone && n.exponent.isNone

end Numeral

/-! ## Numbers -/

/-- A number. -/
inductive Number where
  | integer (z : Int)
  | floating
  deriving DecidableEq, Repr

/-- The number that a numeral with a sign stands for. -/
def Number.ofNumeral (negative : Bool) (n : Numeral) : Except Fault Number :=
  let size := Decimal.value n.whole
  if n.isWhole && negative && 0 < size && size ≤ 0x8000_0000_0000_0000 then .ok (.integer (-size))
  else if n.isWhole && !negative && size < 0x1_0000_0000_0000_0000 then .ok (.integer size)
  else if n.isTooLarge then .error .malformed
  else .ok .floating

/-- A number with its sign. -/
def readNumber : Step Number := fun cs =>
  let (negative, cs) := match cs with
    | '-' :: rest => (true, rest)
    | cs => (false, cs)
  match readNumeral cs with
  | .error e => .error e
  | .ok (n, rest) =>
    match Number.ofNumeral negative n with
    | .error e => .error e
    | .ok number => .ok (number, rest)

/-- A number begins with this character. -/
def startsNumber (c : Char) : Bool := c = '-' || isDigit c

end Backpressure.Json
