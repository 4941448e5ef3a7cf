set_option autoImplicit false

/-!
# Decimal numerals

The digits that numbers are written with: naturals and integers without leading
zeros, and exact fractions `value / 10 ^ places` without trailing zeros.
-/

namespace Backpressure.Decimal

/-- The digits of a natural number, most significant first; zero is `0`. -/
def natural (n : Nat) : List Char := Nat.toDigits 10 n

/-- A minus sign stands in front of a negative integer. -/
def integer (z : Int) : List Char :=
  if z < 0 then '-' :: natural z.natAbs else natural z.natAbs

/-- The digits of `rest / 10 ^ places` behind the point, for `rest < 10 ^ places`;
they end where nothing is left to write. -/
def fraction : Nat → Nat → List Char
  | 0, _ => []
  | places + 1, rest =>
    if rest = 0 then []
    else Nat.digitChar (rest / Nat.pow 10 places) ::
        fraction places (rest % Nat.pow 10 places)

/-- The exact decimal text of `value / 10 ^ places`; whole values have no point. -/
def fixed (value places : Nat) : List Char :=
  let whole := natural (value / Nat.pow 10 places)
  let rest := value % Nat.pow 10 places
  if rest = 0 then whole else whole ++ '.' :: fraction places rest

/-- The text of a natural number. -/
def text (n : Nat) : String := String.ofList (natural n)

/-- The text of an integer. -/
def signedText (z : Int) : String := String.ofList (integer z)

/-- The number that a string of decimal digits stands for. -/
def value (digits : List Char) : Nat :=
  digits.foldl (fun n c => 10 * n + (c.toNat - '0'.toNat)) 0

/-- The decimal digits are `0` to `9` and no other characters. -/
def isDigit (c : Char) : Bool := '0' ≤ c && c ≤ '9'

end Backpressure.Decimal
