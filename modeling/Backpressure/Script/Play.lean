import Backpressure.Script.Op
set_option autoImplicit false

/-!
# Playing a script

The clock moves on by a microsecond with each write or operation, and by more when the
script sleeps or waits for a bound to run out. A bound of at most half a second is
waited for within the operation of its write; a writer under a longer one stays held.
-/

namespace Backpressure.Script

open Backpressure.Pipeline

/-- A script between two operations. -/
structure State where
  world : World
  clock : Instant := 0
  /-- The tickets of the numbered writers, in order. -/
  writers : List Nat := []
  /-- What a recorder was told, latest first. -/
  told : List Signal := []
  deriving DecidableEq, Repr

/-- A step of the clock, in nanoseconds. -/
def tick : Nat := 1000

/-- The longest bound that is waited for within an operation, in nanoseconds. -/
def patience : Nat := 500_000_000

/-! ## Writes -/

/-- Waits until the bound of a held writer runs out, if it is within `patience`. The
clock moves on to that moment. -/
def waitOut (c : Course) (ticket : Nat) (clock : Instant) : Course × Instant :=
  match c.world.throttle.waiting.find? (·.ticket == ticket) with
  | none => (c, clock)
  | some w =>
    match w.deadline with
    | none => (c, clock)
    | some d =>
      if d ≤ w.start + patience then (c.step (.expire ticket (max clock d)), max clock d)
      else (c, clock)

/-- Writes a message and waits for a short bound to run out. -/
def writeOut (c : Course) (session : Nat) (payload : Payload) (clock : Instant) :
    Course × Instant :=
  waitOut (c.step (.write session payload clock)) c.world.arrivals clock

/-- Writes empty messages, one per step of the clock. -/
def burst (c : Course) (session : Nat) (clock : Instant) : Nat → Course × Instant
  | 0 => (c, clock)
  | n + 1 => burst (c.step (.write session [] clock)) session (clock + tick) n

/-! ## Views on what happened -/

/-- The number of the writer with a ticket; `0` if it has none. -/
def writerOf (writers : List Nat) (ticket : Nat) : Nat :=
  match writers.idxOf? ticket with
  | none => 0
  | some i => i + 1

/-- The result of a write that came to its end in some world. -/
def resultOf (w : World) (o : Outcome) : Result :=
  match o with
  | .failed (.refused (.timedOut _ waited _)) =>
    ⟨o, some (w.throttle.config.blockTimeout.any fun d => d.nanos ≤ waited.nanos)⟩
  | _ => ⟨o, none⟩

/-- A call is listed unless it was for a write without a number. -/
def isListed (writers : List Nat) (ticket : Option Nat) : Bool :=
  ticket.all fun t => writerOf writers t != 0

/-- The calls among some happenings, each with the number of wakes before it. -/
def arrivals (writers : List Nat) (l : Ledger) (wakeups : UInt64) : List Happening → List Arrival
  | [] => []
  | .recorded .wakeup :: rest => arrivals writers l (wakeups + 1) rest
  | .forwarded ticket call :: rest =>
    let later := arrivals writers l wakeups rest
    if isListed writers ticket then
      { writer := (ticket.map (writerOf writers)).getD 0
        session := l.idOf call.session
        call := call
        wakeups := wakeups } :: later
    else later
  | _ :: rest => arrivals writers l wakeups rest

/-- Values in the order of their numbers, those of one number as they come. -/
def byNumber {α : Type} (number : α → Nat) (values : List α) : List α :=
  values.mergeSort fun a b => number a ≤ number b

/-! ## Operations -/

/-- What an operation does: the course that it takes, the clock after it, and its answer. -/
structure Deed where
  course : Course
  clock : Instant
  answer : Answer

/-- The loads of a session and its service. -/
def loads (l : Ledger) (session : Nat) : Answer :=
  let f := (l.view session).figures
  .loads ⟨f.localMessages, f.localBytes⟩ ⟨f.globalMessages, f.globalBytes⟩

/-- The same entry, posted several times. -/
def postTimes (c : Course) (entry : Ledger.Entry) (times : Nat) : Course :=
  c.run (List.replicate times (.post entry))

/-- The answer to a call from outside. -/
def answerOf (c : Course) : Answer :=
  match c.happened.filterMap Happening.answer? with
  | [] => .nothing
  | o :: _ => .result ⟨o, none⟩

/-- The answer to a write: its result, or the number of the writer that is held. -/
def writeAnswer (c : Course) (ticket number : Nat) : Answer :=
  match c.endings.find? (·.1 == ticket) with
  | none => .held number
  | some (_, e) => .result (resultOf c.world e.outcome)

/-- The answer to a burst: how many writes succeeded, and how many reached the next stage. -/
def burstAnswer (c : Course) : Answer :=
  .burst (c.endings.countP (·.2.outcome == .done)) c.calls.length

/-- The answer to a change of configuration. -/
def changeAnswer (before : Config) (change : Config.Change) : Answer :=
  match before.change change with
  | .error e => .rejected e
  | .ok after => .changed (after.readBack change)

/-- Carries out an operation at the time that the clock shows. -/
def perform (s : State) (now : Instant) : Op → Deed :=
  let c : Course := { world := s.world }
  let moment : Moment := { now := now }
  let settled (c : Course) : Deed := ⟨c, now, answerOf c⟩
  let quiet (c : Course) : Deed := ⟨c, now, .nothing⟩
  fun
  | .openService => quiet (c.step (.post .openService))
  | .openSession service =>
    let opened := c.step (.post (.openSession service))
    ⟨opened, now, .session (opened.world.ledger.idOf s.world.ledger.sessions.length)⟩
  | .schedule session bytes times =>
    let posted := postTimes c (.schedule session bytes) times
    ⟨posted, now, loads posted.world.ledger session⟩
  | .complete session bytes times =>
    let posted := postTimes c (.complete session bytes) times
    ⟨posted, now, loads posted.world.ledger session⟩
  | .close session => quiet (c.step (.post (.close session)))
  | .lose session => quiet (c.step (.post (.lose session)))
  | .configure change =>
    ⟨c.step (.configure change), now, changeAnswer s.world.throttle.config change⟩
  | .ready session => ⟨c, now, .verdict (s.world.verdict session)⟩
  | .standing =>
    let m := s.world.throttle.metrics
    ⟨c, now, .standing m.isBlocking m.failedWrites s.world.throttle.config.policy⟩
  | .sleep ms => ⟨c, now + ms * 1_000_000, .nothing⟩
  | .next hook mode => quiet (c.step (.direct (directed s.world.stage mode hook)))
  | .drainOnException d => quiet (c.step (.direct { s.world.stage with drains := [d] }))
  | .write session payload =>
    let (written, clock) := writeOut c session payload now
    ⟨written, clock, writeAnswer written s.world.arrivals (s.writers.length + 1)⟩
  | .wake => ⟨c.step (.wake moment), now, .result ⟨.done, none⟩⟩
  | .sent session payload => settled (c.step (.sent session payload moment))
  | .exception session cause => settled (c.step (.exception session cause moment))
  | .closed session => settled (c.step (.closed session moment))
  | .burst session threads each =>
    let (written, clock) := burst c session now (threads * each)
    ⟨written, clock, burstAnswer written⟩
  | .relay relay =>
    let (call, world) := relay.call s.world
    settled ({ c with world := world }.handOn call)

/-- The tickets that an operation gives to numbered writers. -/
def numbered (s : State) : Op → List Nat
  | .write _ _ => [s.world.arrivals]
  | _ => []

/-- One operation of a script: what comes of it, and the script after it. -/
def step (s : State) (op : Op) : Step × State :=
  let deed := perform s (s.clock + tick) op
  let c := deed.course
  let own := numbered s op
  let writers := s.writers ++ own
  let released := c.endings.filter fun e => !own.contains e.1 && writerOf writers e.1 != 0
  ({ answer := deed.answer
     metrics := c.world.throttle.metrics
     released := byNumber (·.1)
       (released.map fun e => (writerOf writers e.1, resultOf c.world e.2.outcome))
     arrivals := byNumber (·.writer)
       (arrivals writers c.world.ledger s.world.throttle.counters.wakeups c.happened)
     events := byNumber (·.1) (c.events.map fun e => (writerOf writers e.1, e.2))
     looked := c.past.any Happening.isLook },
   { world := c.world, clock := deed.clock, writers := writers
     told := c.signals.reverse ++ s.told })

/-- Plays operations one after the other. -/
def play (s : State) : List Op → List Step × State
  | [] => ([], s)
  | op :: rest =>
    let (result, s) := step s op
    let (results, s) := play s rest
    (result :: results, s)

/-- The figures of a recorder after a script. -/
def State.exported (s : State) : Export := Export.ofSignals s.told.reverse

/-- A script about to be played on a throttle. -/
def State.ofThrottle (t : Throttle) : State := { world := { throttle := t } }

end Backpressure.Script
