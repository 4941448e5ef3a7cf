import Backpressure.Counters
set_option autoImplicit false

/-!
# Signals to a recorder

Beside its own counters a throttle tells an outside recorder what happens: counters
go up by one, the gauge of held writers goes up and down, waits are sampled. The
recorder keeps what it is told; its figures are views on the list of signals. A
figure that no signal touched is absent.
-/

namespace Backpressure

/-- A counter at the recorder. -/
inductive Meter where
  | throttledWrites
  | warningsLogged
  | warningsSuppressed
  | blockedWrites
  | rejectedWrites
  | timedOutWrites
  | wakeups
  deriving DecidableEq, Repr, Inhabited

namespace Meter

/-- Every counter at the recorder. -/
def all : List Meter :=
  [throttledWrites, warningsLogged, warningsSuppressed, blockedWrites, rejectedWrites,
   timedOutWrites, wakeups]

/-- The name that a counter has at the recorder. -/
def name : Meter → String
  | throttledWrites => "writethrottle.throttled_writes"
  | warningsLogged => "writethrottle.warnings_logged"
  | warningsSuppressed => "writethrottle.warnings_suppressed"
  | blockedWrites => "writethrottle.blocked_writes"
  | rejectedWrites => "writethrottle.rejected_writes"
  | timedOutWrites => "writethrottle.timed_out_writes"
  | wakeups => "writethrottle.wakeups"

/-- The throttle's own counter beside one at the recorder. -/
def ofCounters (c : Counters) : Meter → UInt64
  | throttledWrites => c.throttledWrites
  | warningsLogged => c.warningsLogged
  | warningsSuppressed => c.warningsSuppressed
  | blockedWrites => c.blockedWrites
  | rejectedWrites => c.rejectedWrites
  | timedOutWrites => c.timedOutWrites
  | wakeups => c.wakeups

end Meter

/-- One thing that a recorder is told. -/
inductive Signal where
  /-- A counter goes up by one. -/
  | count (meter : Meter)
  /-- A held write waited so long. -/
  | sample (waited : Duration)
  /-- One more writer is held. -/
  | raise
  /-- One writer fewer is held. -/
  | lower
  deriving DecidableEq, Repr

/-- What the recorder is told about a record. -/
def Record.signals : Record → List Signal
  | .throttled => [.count .throttledWrites]
  | .warning true => [.count .warningsLogged]
  | .warning false => [.count .warningsSuppressed]
  | .blocked waited => [.count .blockedWrites, .sample waited]
  | .rejected => [.count .rejectedWrites]
  | .timedOut => [.count .timedOutWrites]
  | .wakeup => [.count .wakeups]

/-- The figures of a recorder. -/
structure Export where
  /-- The counters that were touched. -/
  counters : List (Meter × Nat)
  /-- The gauge of held writers and the highest value it ever had, if it was touched. -/
  gauge : Option (Int × Int)
  /-- The waits, in the order in which they were told. -/
  samples : List Duration
  deriving DecidableEq, Repr

namespace Signal

/-- The gauge of held writers is `writethrottle.waiters`. -/
def gaugeName : String := "writethrottle.waiters"

/-- Waits are sampled, in milliseconds, as `writethrottle.block_time.ms`. -/
def sampleName : String := "writethrottle.block_time.ms"

/-- How far a signal moves the gauge. -/
def gaugeStep : Signal → Option Int
  | raise => some 1
  | lower => some (-1)
  | count _ | sample _ => none

/-- The wait that a signal samples. -/
def sampled : Signal → Option Duration
  | sample waited => some waited
  | count _ | raise | lower => none

/-- A counter at the recorder after some signals; absent if none of them is for it. -/
def counter? (signals : List Signal) (m : Meter) : Option Nat :=
  match signals.count (.count m) with
  | 0 => none
  | n + 1 => some (n + 1)

/-- The gauge and its highest value after one more step. -/
def moveGauge (gauge : Option (Int × Int)) (step : Int) : Option (Int × Int) :=
  match gauge with
  | none => some (step, max 0 step)
  | some (current, highest) => some (current + step, max highest (current + step))

/-- The gauge and its highest value after some signals; absent if none of them moves it. -/
def gauge? (signals : List Signal) : Option (Int × Int) :=
  (signals.filterMap gaugeStep).foldl moveGauge none

/-- The waits that some signals sample. -/
def samples (signals : List Signal) : List Duration := signals.filterMap sampled

end Signal

/-- The figures of a recorder that was told some signals, in this order. -/
def Export.ofSignals (signals : List Signal) : Export where
  counters := Meter.all.filterMap fun m => (Signal.counter? signals m).map (m, ·)
  gauge := Signal.gauge? signals
  samples := Signal.samples signals

end Backpressure
