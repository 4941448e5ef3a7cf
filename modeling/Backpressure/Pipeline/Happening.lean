import Backpressure.Event
import Backpressure.Pipeline.Stage
import Backpressure.Policy
import Backpressure.Signal
set_option autoImplicit false

/-!
# What happens in a pipeline

Everything that can be seen of a run is a list of happenings: writes arriving and
ending, looks at sessions, questions to the warning gate, records, trace events, calls
of the next stage. A write is known by its ticket, the number of writes before it. The
signals to a recorder, the trace and the calls of the next stage are views on the list.
-/

namespace Backpressure.Pipeline

/-- The text of the crash that comes of reading a lost session. -/
def lostText : String := "session gone"

/-- How a write comes to its end. -/
inductive Ending where
  /-- The next stage was called, and this is what came of it. -/
  | forwarded (outcome : Outcome)
  /-- The throttle refused the write and hands its request back. -/
  | refused (refusal : Refusal)
  /-- The session could not be read, and the request is dropped. -/
  | lost
  deriving DecidableEq, Repr

/-- What the writer sees of the end of its write. -/
def Ending.outcome : Ending → Outcome
  | forwarded o => o
  | refused e => .failed (.refused e)
  | lost => .crashed lostText

/-- One thing that happens in a pipeline. -/
inductive Happening where
  /-- A write comes to the throttle, which reads its policy. -/
  | arrived (ticket : Nat) (session : Nat) (request : Request) (policy : Policy)
  /-- A write has its session looked at. -/
  | looked (ticket : Nat) (session : Nat) (look : Look)
  /-- A write is throttled under the policy that it came with. -/
  | throttled (ticket : Nat) (policy : Policy)
  /-- A write asks for a warning to pass the gate. -/
  | asked (ticket : Nat) (now : Instant) (interval : Duration) (admitted : Bool)
  /-- The throttle counts something. -/
  | recorded (record : Record)
  /-- A writer starts to wait, for as long as the bound allows. -/
  | entered (ticket : Nat) (bound : Option Duration)
  /-- A writer no longer waits; its wait ended in some way or was broken off. -/
  | left (ticket : Nat) (e : Option WaitEnd)
  /-- A write tells the trace something. -/
  | traced (ticket : Nat) (event : Event)
  /-- The next stage is called, for a write or from outside. -/
  | forwarded (ticket : Option Nat) (call : Call)
  /-- A write comes to its end. -/
  | ended (ticket : Nat) (ending : Ending)
  /-- A call from outside that is no write comes to its end. -/
  | answered (outcome : Outcome)
  deriving DecidableEq, Repr

namespace Happening

/-- What a recorder is told. -/
def signals : Happening → List Signal
  | recorded r => r.signals
  | entered _ _ => [.raise]
  | left _ _ => [.lower]
  | _ => []

/-- What the trace is told, with the write that it is about. -/
def event? : Happening → Option (Nat × Event)
  | traced ticket e => some (ticket, e)
  | _ => none

/-- The call of the next stage, with the write that it is for. -/
def call? : Happening → Option (Option Nat × Call)
  | forwarded ticket c => some (ticket, c)
  | _ => none

/-- The end of a write, with its ticket. -/
def ending? : Happening → Option (Nat × Ending)
  | ended ticket e => some (ticket, e)
  | _ => none

/-- The outcome of a call from outside. -/
def answer? : Happening → Option Outcome
  | answered o => some o
  | _ => none

/-- A session was looked at. -/
def isLook : Happening → Bool
  | looked .. => true
  | _ => false

end Happening

end Backpressure.Pipeline
