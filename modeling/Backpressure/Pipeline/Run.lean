import Backpressure.Pipeline.Wake
set_option autoImplicit false

/-!
# Runs of a pipeline

What may happen to a pipeline from outside is an action; a run is any sequence of
them. Times and the order in which writers are woken are part of the action, so a run
covers every clock and every order.
-/

namespace Backpressure.Pipeline

/-- Something that is done to a pipeline from outside. -/
inductive Action where
  /-- An entry in the ledger: a session opens, drains, closes, … -/
  | post (entry : Ledger.Entry)
  /-- A change of the throttle's configuration. -/
  | configure (change : Config.Change)
  /-- The next stage answers differently from now on. -/
  | direct (stage : Stage)
  /-- A message is written on a session. -/
  | write (session : Nat) (payload : Payload) (now : Instant)
  /-- The deadline of a held writer may have come. -/
  | expire (ticket : Nat) (now : Instant)
  /-- The throttle is asked to wake its writers. -/
  | wake (m : Moment)
  /-- A message was sent. -/
  | sent (session : Nat) (payload : Payload) (m : Moment)
  /-- An error comes through the pipeline. -/
  | exception (session : Nat) (cause : Cause) (m : Moment)
  /-- A session was closed. -/
  | closed (session : Nat) (m : Moment)
  deriving DecidableEq, Repr

namespace Course

/-- The course after one action. -/
def step (c : Course) : Action → Course
  | .post entry => { c with world := { c.world with ledger := c.world.ledger.post entry } }
  | .configure change =>
    c.withThrottle { c.world.throttle with config := c.world.throttle.config.update change }
  | .direct stage => { c with world := { c.world with stage := stage } }
  | .write session payload now =>
    let (request, world) := c.world.issue payload
    { c with world := world }.write session request now
  | .expire ticket now => c.expire ticket now
  | .wake m => c.wake m
  | .sent session payload m =>
    let (request, world) := c.world.issue payload
    { c with world := world }.sent session request m
  | .exception session cause m =>
    let (error, world) := c.world.raise cause
    { c with world := world }.exception session error m
  | .closed session m => c.closed session m

/-- The course after several actions. -/
def run (c : Course) (actions : List Action) : Course := actions.foldl step c

@[simp] theorem run_nil (c : Course) : c.run [] = c := rfl

@[simp] theorem run_cons (c : Course) (a : Action) (as : List Action) :
    c.run (a :: as) = (c.step a).run as := rfl

theorem run_append (c : Course) (as bs : List Action) :
    c.run (as ++ bs) = (c.run as).run bs := List.foldl_append

/-- The course of a new throttle before anything happens. -/
def start (s : Settings) : Course := { world := { throttle := Throttle.ofSettings s } }

end Course

end Backpressure.Pipeline
