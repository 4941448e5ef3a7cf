import Backpressure.Flood
import Backpressure.Ledger
import Backpressure.Pipeline.Happening
import Backpressure.Throttle
set_option autoImplicit false

/-!
# The world of a pipeline

The throttle with everything that it meets: the ledger of its sessions, the next
stage, the source of request identities and the number of writes so far. A `Course` is
a world together with what has happened in it.
-/

namespace Backpressure.Pipeline

/-- A throttle and what surrounds it. -/
structure World where
  throttle : Throttle
  ledger : Ledger := {}
  stage : Stage := {}
  numbering : Numbering := {}
  arrivals : Nat := 0
  deriving DecidableEq, Repr

namespace World

instance : Inhabited World := ⟨{ throttle := default }⟩

/-- One look at a session under the limits in force. -/
def look (w : World) (session : Nat) : Look :=
  Readiness.examine w.throttle.config.limits (w.ledger.view session)

/-- What a look at a session shows. -/
def verdict (w : World) (session : Nat) : Verdict := (w.look session).verdict

/-- The report on a session. -/
def report (w : World) (session : Nat) : String :=
  Flood.report (w.ledger.view session).figures w.throttle.config.limits

/-- Makes a request. -/
def issue (w : World) (payload : Payload) : Request × World :=
  let (r, n) := w.numbering.issue payload
  (r, { w with numbering := n })

/-- The hook of the next stage for errors completes the writes that it was to complete. -/
def drain (w : World) : World :=
  { w with
    ledger := w.stage.drains.foldl (fun l d => l.complete d.session d.bytes) w.ledger
    stage := { w.stage with drains := [] } }

/-- Raises an error. -/
def raise (w : World) (cause : Cause) : StageError × World :=
  let (e, n) := cause.raise w.numbering
  (e, { w with numbering := n })

end World

/-- A world and what has happened in it, latest first. -/
structure Course where
  world : World
  past : List Happening := []
  deriving DecidableEq, Repr

namespace Course

instance : Inhabited Course := ⟨{ world := default }⟩

/-- One more thing has happened. -/
def note (c : Course) (h : Happening) : Course := { c with past := h :: c.past }

/-- The throttle counts something. -/
def record (c : Course) (r : Record) : Course :=
  { world := { c.world with throttle := c.world.throttle.record r }
    past := .recorded r :: c.past }

/-- Another throttle stands in the same world. -/
def withThrottle (c : Course) (t : Throttle) : Course :=
  { c with world := { c.world with throttle := t } }

/-- What has happened, in order. -/
def happened (c : Course) : List Happening := c.past.reverse

/-- What a recorder was told. -/
def signals (c : Course) : List Signal := c.happened.flatMap Happening.signals

/-- What the trace was told. -/
def events (c : Course) : List (Nat × Event) := c.happened.filterMap Happening.event?

/-- The calls of the next stage. -/
def calls (c : Course) : List (Option Nat × Call) := c.happened.filterMap Happening.call?

/-- The writes that came to their end. -/
def endings (c : Course) : List (Nat × Ending) := c.happened.filterMap Happening.ending?

end Course

end Backpressure.Pipeline
