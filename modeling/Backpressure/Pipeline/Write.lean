import Backpressure.Pipeline.World
set_option autoImplicit false

/-!
# A write through the throttle

A write is forwarded untouched when the policy is off or its session is ready.
Otherwise it is throttled: it passes with a warning, is refused, or is held. A held
writer goes through passes; each one lets it go on, gives it up, breaks its wait off or
leaves it held.
-/

namespace Backpressure.Pipeline.Course

/-! ## Ends of a write -/

/-- A write comes to its end. -/
def finish (c : Course) (ticket : Nat) (e : Ending) : Course := c.note (.ended ticket e)

/-- A write is handed to the next stage and ends as that call does. -/
def forward (c : Course) (ticket session : Nat) (request : Request) : Course :=
  (c.note (.forwarded (some ticket) (.write session request))).finish ticket
    (.forwarded (c.world.stage.outcome (.write session request)))

/-- A write is refused at once. -/
def reject (c : Course) (ticket session : Nat) (request : Request) : Course :=
  (c.record .rejected).finish ticket
    (.refused (.overLimit request (c.world.report session)))

/-- A held write is refused after a wait. -/
def giveUp (c : Course) (w : Waiter) (waited : Duration) : Course :=
  (c.record .timedOut).finish w.ticket
    (.refused (.timedOut w.request waited (c.world.report w.session)))

/-! ## Warnings -/

/-- A throttled write asks for a warning, which is written if the gate admits it. -/
def warn (c : Course) (ticket session : Nat) (now : Instant) : Course :=
  let t := c.world.throttle
  let interval := t.config.logInterval
  let (gate, admitted) := t.gate.ask now interval
  let asked := (c.withThrottle { t with gate := gate }).note (.asked ticket now interval admitted)
  let counted := asked.record (.warning admitted)
  if admitted then
    counted.note
      (.traced ticket (.warning (c.world.ledger.idOf session) (c.world.report session)))
  else counted

/-! ## Held writers -/

/-- A writer starts to wait, for as long as the bound allows. -/
def enter (c : Course) (w : Waiter) (bound : Option Duration) : Course :=
  (c.withThrottle (c.world.throttle.enter w)).note (.entered w.ticket bound)

/-- A writer no longer waits. -/
def leave (c : Course) (w : Waiter) (e : Option WaitEnd) : Course :=
  (c.withThrottle (c.world.throttle.leave w)).note (.left w.ticket e)

/-- The wait of a writer is over: it goes on or is refused. -/
def release (c : Course) (w : Waiter) (e : WaitEnd) (now : Instant) : Course :=
  let waited := Duration.ofNanos (now - w.start)
  let left := ((c.leave w (some e)).record (.blocked waited)).note
    (.traced w.ticket (.released (c.world.ledger.idOf w.session) waited e))
  match e with
  | .ready => left.forward w.ticket w.session w.request
  | .timedOut => left.giveUp w waited

/-- One pass of a held writer. -/
def pass (c : Course) (w : Waiter) (now : Instant) : Course :=
  let look := c.world.look w.session
  let seen := c.note (.looked w.ticket w.session look)
  match Wait.pass w.deadline look.verdict now with
  | .stays => seen
  | .ends e => seen.release w e now
  | .breaks => (seen.leave w none).finish w.ticket .lost

/-- A throttled writer is held, and goes through its first pass. -/
def hold (c : Course) (ticket session : Nat) (request : Request) (now : Instant) : Course :=
  let bound := c.world.throttle.config.blockTimeout
  let w : Waiter :=
    { ticket := ticket, session := session, request := request, start := now
      deadline := Wait.deadline now bound }
  ((c.note (.traced ticket (.holding (c.world.ledger.idOf session)))).enter w bound).pass w now

/-! ## Writes -/

/-- What a policy that is not off does with a throttled write. -/
def act (c : Course) (policy : Policy) (hon : policy ≠ .off) (ticket session : Nat)
    (request : Request) (now : Instant) : Course :=
  let counted := (c.note (.throttled ticket policy)).record .throttled
  match policy with
  | .off => absurd rfl hon
  | .log => (counted.warn ticket session now).forward ticket session request
  | .block => counted.hold ticket session request now
  | .logAndBlock => (counted.warn ticket session now).hold ticket session request now
  | .exception => counted.reject ticket session request

/-- A write has its session looked at, unless the policy is off. -/
def consider (c : Course) (policy : Policy) (hon : policy ≠ .off) (ticket session : Nat)
    (request : Request) (now : Instant) : Course :=
  let look := c.world.look session
  let seen := c.note (.looked ticket session look)
  match look.verdict with
  | .ready => seen.forward ticket session request
  | .flooded => seen.act policy hon ticket session request now
  | .unreadable => seen.finish ticket .lost

/-- A write comes to the throttle and gets the next ticket. -/
def arrive (c : Course) (session : Nat) (request : Request) : Course :=
  { world := { c.world with arrivals := c.world.arrivals + 1 }
    past := .arrived c.world.arrivals session request c.world.throttle.config.policy :: c.past }

/-- A request is written on a session. -/
def write (c : Course) (session : Nat) (request : Request) (now : Instant) : Course :=
  let ticket := c.world.arrivals
  let policy := c.world.throttle.config.policy
  let arrived := c.arrive session request
  if hoff : policy = .off then arrived.forward ticket session request
  else arrived.consider policy hoff ticket session request now

end Backpressure.Pipeline.Course
