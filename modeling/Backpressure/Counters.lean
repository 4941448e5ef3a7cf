import Backpressure.Duration
set_option autoImplicit false

/-!
# Activity counters

What a throttle did is counted in eight machine words that wrap. A record says what
happened once; `Metrics` puts the number of held writers beside the counters.
-/

namespace Backpressure

/-- One thing that a throttle counts. -/
inductive Record where
  /-- A write found its session over a limit. -/
  | throttled
  /-- A warning was due; it was written or suppressed. -/
  | warning (logged : Bool)
  /-- A held write went on or was given up, after a wait. -/
  | blocked (waited : Duration)
  /-- A write was refused at once. -/
  | rejected
  /-- A held write was refused. -/
  | timedOut
  /-- A wake reached at least one held writer. -/
  | wakeup
  deriving DecidableEq, Repr

/-- The counters of a throttle. -/
structure Counters where
  throttledWrites : UInt64 := 0
  warningsLogged : UInt64 := 0
  warningsSuppressed : UInt64 := 0
  blockedWrites : UInt64 := 0
  rejectedWrites : UInt64 := 0
  timedOutWrites : UInt64 := 0
  wakeups : UInt64 := 0
  blockTimeMs : UInt64 := 0
  deriving DecidableEq, Repr

/-- The milliseconds of a wait as they are summed up, cut at the largest word. -/
def Duration.millisWord (d : Duration) : UInt64 := UInt64.ofNat (min d.millis 0xFFFF_FFFF_FFFF_FFFF)

namespace Counters

instance : Inhabited Counters := ⟨{}⟩

/-- Counts one record. -/
def record (c : Counters) : Record → Counters
  | .throttled => { c with throttledWrites := c.throttledWrites + 1 }
  | .warning true => { c with warningsLogged := c.warningsLogged + 1 }
  | .warning false => { c with warningsSuppressed := c.warningsSuppressed + 1 }
  | .blocked waited =>
    { c with
      blockedWrites := c.blockedWrites + 1
      blockTimeMs := c.blockTimeMs + waited.millisWord }
  | .rejected => { c with rejectedWrites := c.rejectedWrites + 1 }
  | .timedOut => { c with timedOutWrites := c.timedOutWrites + 1 }
  | .wakeup => { c with wakeups := c.wakeups + 1 }

/-- Counts several records. -/
def recordAll (c : Counters) (records : List Record) : Counters := records.foldl record c

@[simp] theorem recordAll_nil (c : Counters) : c.recordAll [] = c := rfl

@[simp] theorem recordAll_cons (c : Counters) (r : Record) (rs : List Record) :
    c.recordAll (r :: rs) = (c.record r).recordAll rs := rfl

/-- Two records are counted in either order. -/
theorem record_comm (c : Counters) (r s : Record) :
    (c.record r).record s = (c.record s).record r := by
  rcases r with _ | (_ | _) | _ | _ | _ | _ <;> rcases s with _ | (_ | _) | _ | _ | _ | _ <;>
    simp only [record]
  simp only [Counters.mk.injEq, true_and]
  ac_rfl

end Counters

/-- The counters beside the number of writers held at that moment. -/
structure Metrics where
  counters : Counters := {}
  currentWaiters : Nat := 0
  deriving DecidableEq, Repr

namespace Metrics

instance : Inhabited Metrics := ⟨{}⟩

/-- A writer is held. -/
def isBlocking (m : Metrics) : Bool := 0 < m.currentWaiters

/-- The writes refused, at once or after a wait. -/
def failedWrites (m : Metrics) : UInt64 := m.counters.rejectedWrites + m.counters.timedOutWrites

/-- The milliseconds that a held write waited on average, `0` if none was held. -/
def averageBlockTimeMs (m : Metrics) : Float :=
  if m.counters.blockedWrites = 0 then 0.0
  else m.counters.blockTimeMs.toFloat / m.counters.blockedWrites.toFloat

end Metrics

end Backpressure
