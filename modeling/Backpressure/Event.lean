import Backpressure.SessionId
import Backpressure.Wait
set_option autoImplicit false

/-!
# Trace events

What a throttle tells a trace about one write: a warning that its session is flooded,
that the writer is held, and that it was released. The last two stand inside a span
that names the session.
-/

namespace Backpressure

/-- One thing told to a trace. -/
inductive Event where
  | warning (session : SessionId) (report : String)
  | holding (session : SessionId)
  | released (session : SessionId) (waited : Duration) (e : WaitEnd)
  deriving DecidableEq, Repr

namespace Event

/-- The span in which a writer is held. -/
def blockSpan (session : SessionId) : String := "block:session=" ++ session.text

/-- An event as named fields, without the time that a released writer waited. -/
def fields : Event → List (String × String)
  | warning session report =>
    [("level", "WARN"), ("message", report), ("session", session.text)]
  | holding session =>
    [("level", "DEBUG"), ("message", "Blocking writer until scheduled writes drain"),
     ("span", blockSpan session)]
  | released session _ e =>
    [("level", "DEBUG"), ("message", "Writer released"), ("outcome", e.text),
     ("span", blockSpan session)]

end Event

end Backpressure
