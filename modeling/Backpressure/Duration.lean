import Backpressure.Text.Decimal
set_option autoImplicit false

/-!
# Durations

A duration is a whole number of nanoseconds. The longest one has `2 ^ 64 - 1`
seconds and `999999999` nanoseconds. The module gives its parts, its length in
milliseconds and its text.
-/

namespace Backpressure

/-- A length of time in whole nanoseconds. -/
structure Duration where
  nanos : Nat
  bounded : nanos < 0x1_0000_0000_0000_0000 * 1_000_000_000
  deriving DecidableEq, Repr

namespace Duration

/-- No time at all. -/
def zero : Duration := ⟨0, by decide⟩

instance : Inhabited Duration := ⟨zero⟩

/-- The longest duration. -/
def longest : Duration := ⟨0x1_0000_0000_0000_0000 * 1_000_000_000 - 1, by decide⟩

/-- A number of nanoseconds as a duration, cut at the longest one. -/
def ofNanos (n : Nat) : Duration :=
  ⟨min n (0x1_0000_0000_0000_0000 * 1_000_000_000 - 1), by omega⟩

/-- Seconds and nanoseconds added up; there is none beyond the longest duration. -/
def ofParts? (seconds nanos : Nat) : Option Duration :=
  let total := 1_000_000_000 * seconds + nanos
  if h : total < 0x1_0000_0000_0000_0000 * 1_000_000_000 then some ⟨total, h⟩ else none

/-- Whole seconds. -/
def ofSeconds (seconds : Nat) : Duration := ofNanos (seconds * 1_000_000_000)

/-- The whole seconds in a duration. -/
def seconds (d : Duration) : Nat := d.nanos / 1_000_000_000

/-- The nanoseconds beyond the whole seconds. -/
def subsecond (d : Duration) : Nat := d.nanos % 1_000_000_000

/-- The whole milliseconds in a duration. -/
def millis (d : Duration) : Nat := d.nanos / 1_000_000

/-- The length in milliseconds as a double: the seconds plus the fraction of a
second, times a thousand, each step rounded. -/
def millisFloat (d : Duration) : Float :=
  ((UInt64.ofNat d.seconds).toFloat + (UInt64.ofNat d.subsecond).toFloat / 1000000000.0) * 1000.0

/-- The exact length in the largest unit of which there is at least one: seconds,
milliseconds, microseconds or nanoseconds. -/
def text (d : Duration) : String :=
  if 1_000_000_000 ≤ d.nanos then String.ofList (Decimal.fixed d.nanos 9) ++ "s"
  else if 1_000_000 ≤ d.nanos then String.ofList (Decimal.fixed d.nanos 6) ++ "ms"
  else if 1_000 ≤ d.nanos then String.ofList (Decimal.fixed d.nanos 3) ++ "\u00b5s"
  else String.ofList (Decimal.fixed d.nanos 0) ++ "ns"

@[ext] theorem ext {a b : Duration} (h : a.nanos = b.nanos) : a = b := by
  cases a; cases b; simp_all

theorem seconds_lt (d : Duration) : d.seconds < 0x1_0000_0000_0000_0000 := by
  have := d.bounded
  simp only [seconds]
  omega

theorem subsecond_lt (d : Duration) : d.subsecond < 1_000_000_000 :=
  Nat.mod_lt _ (by decide)

/-- The parts of a duration make it up again. -/
theorem ofParts?_seconds_subsecond (d : Duration) :
    ofParts? d.seconds d.subsecond = some d := by
  have hb := d.bounded
  have he : 1_000_000_000 * d.seconds + d.subsecond = d.nanos := Nat.div_add_mod _ _
  have hlt : 1_000_000_000 * d.seconds + d.subsecond <
      0x1_0000_0000_0000_0000 * 1_000_000_000 := by omega
  rw [ofParts?, dif_pos hlt]
  exact congrArg some (ext he)

/-- A duration that a number of nanoseconds reaches is reached by them as a duration. -/
theorem le_nanos_ofNanos {d : Duration} {n : Nat} (h : d.nanos ≤ n) :
    d.nanos ≤ (ofNanos n).nanos :=
  Nat.le_min.mpr ⟨h, Nat.le_pred_of_lt d.bounded⟩

end Duration

end Backpressure
