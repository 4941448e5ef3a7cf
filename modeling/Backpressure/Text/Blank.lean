set_option autoImplicit false

/-!
# Blank characters

The twenty-five characters with the Unicode property `White_Space`, and the text
that is left when blanks are taken off both ends.
-/

namespace Backpressure.Text

/-- The ranges of the Unicode property `White_Space`, ends included. -/
def blankRanges : List (Nat × Nat) :=
  [(0x9, 0xD), (0x20, 0x20), (0x85, 0x85), (0xA0, 0xA0), (0x1680, 0x1680),
   (0x2000, 0x200A), (0x2028, 0x2029), (0x202F, 0x202F), (0x205F, 0x205F), (0x3000, 0x3000)]

/-- The number of a character lies in one of some ranges, ends included. -/
def inRanges (ranges : List (Nat × Nat)) (c : Char) : Bool :=
  ranges.any fun r => r.1 ≤ c.toNat && c.toNat ≤ r.2

/-- A blank is a character with the property `White_Space`. -/
def isBlank (c : Char) : Bool := inRanges blankRanges c

/-- Takes the blanks off the end of a text. -/
def trimRight (cs : List Char) : List Char := (cs.reverse.dropWhile isBlank).reverse

/-- Takes the blanks off both ends of a text. -/
def trim (cs : List Char) : List Char := trimRight (cs.dropWhile isBlank)

@[simp] theorem trim_nil : trim [] = [] := rfl

end Backpressure.Text
