import Backpressure.Text.Decimal
set_option autoImplicit false

/-!
# Session identities

A session is known by a number that its service gave it; the number means something
only beside that service.
-/

namespace Backpressure

/-- The number of a session within its service. -/
structure SessionId where
  value : UInt64
  deriving DecidableEq, Repr, Inhabited

/-- The text of an identity, as it tags warnings. -/
def SessionId.text (i : SessionId) : String := "session-" ++ Decimal.text i.value.toNat

end Backpressure
