import Backpressure.Config
import Backpressure.Counters
import Backpressure.Request
import Backpressure.Wait
set_option autoImplicit false

/-!
# The throttle

What a throttle keeps between two calls: its configuration, the gate for its
warnings, the writers that it holds and their number, and its counters. The number of
held writers is kept on its own; it goes up when a writer starts to wait and down when
its wait is over in whatever way.
-/

namespace Backpressure

/-- A writer that is held, with the request that it wants to write. -/
structure Waiter where
  /-- The number of the write among all writes that came to the throttle. -/
  ticket : Nat
  /-- The place of its session in the ledger. -/
  session : Nat
  request : Request
  /-- When the wait began. -/
  start : Instant
  /-- When it is given up. -/
  deadline : Option Instant
  deriving DecidableEq, Repr, Inhabited

/-- The state of a throttle. -/
structure Throttle where
  config : Config
  gate : WarnGate := {}
  held : Nat := 0
  waiting : List Waiter := []
  counters : Counters := {}
  deriving DecidableEq, Repr

namespace Throttle

/-- A throttle that has not seen a write. -/
def ofSettings (s : Settings) : Throttle := { config := Config.ofSettings s }

/-- A throttle with a policy and the default limits. -/
def ofPolicy (p : Policy) : Throttle := ofSettings (({} : Settings).choose (.policy p))

instance : Inhabited Throttle := ⟨ofSettings {}⟩

/-- The name of the stage. -/
def name : String := "WriteThrottleFilter"

/-- The number of writers that are held. -/
def waitingWriters (t : Throttle) : Nat := t.held

/-- The counters beside the number of held writers. -/
def metrics (t : Throttle) : Metrics := ⟨t.counters, t.waitingWriters⟩

/-- One more writer is held. -/
def enter (t : Throttle) (w : Waiter) : Throttle :=
  { t with held := Wait.enter t.held, waiting := t.waiting ++ [w] }

/-- A writer is no longer held. -/
def leave (t : Throttle) (w : Waiter) : Throttle :=
  { t with held := Wait.leave t.held, waiting := t.waiting.filter (·.ticket != w.ticket) }

/-- Counts one record. -/
def record (t : Throttle) (r : Record) : Throttle := { t with counters := t.counters.record r }

/-! ## What is held -/

section Held

variable (t : Throttle) (w : Waiter) (r : Record)

@[simp] theorem config_record : (t.record r).config = t.config := rfl

@[simp] theorem gate_record : (t.record r).gate = t.gate := rfl

@[simp] theorem held_record : (t.record r).held = t.held := rfl

@[simp] theorem waiting_record : (t.record r).waiting = t.waiting := rfl

@[simp] theorem counters_record : (t.record r).counters = t.counters.record r := rfl

@[simp] theorem gate_enter : (t.enter w).gate = t.gate := rfl

@[simp] theorem held_enter : (t.enter w).held = t.held + 1 := rfl

@[simp] theorem waiting_enter : (t.enter w).waiting = t.waiting ++ [w] := rfl

@[simp] theorem counters_enter : (t.enter w).counters = t.counters := rfl

@[simp] theorem held_leave : (t.leave w).held = t.held - 1 := rfl

@[simp] theorem waiting_leave :
    (t.leave w).waiting = t.waiting.filter (·.ticket != w.ticket) := rfl

@[simp] theorem counters_leave : (t.leave w).counters = t.counters := rfl

end Held

end Throttle

end Backpressure
