import Backpressure.Pipeline.Write
set_option autoImplicit false

/-!
# Waking held writers

A wake reaches every held writer, whichever session it was for; each one goes through
a pass of its own and looks at the clock for itself. The order in which they do so is up
to the outside, and so is the time that each one reads: the order is given as a list of
tickets to bring to the front, and any list arranges the waiting writers; the times are
given by ticket.

The throttle wakes before it forwards that a message was sent or a session closed, and
after it forwarded an error, so that writers see what the next stage did about it,
even if that call fails or crashes.
-/

namespace Backpressure.Pipeline

/-- The moment at which writers are woken: the tickets of those that go first, and the
time that each of them reads in its turn. -/
structure Moment where
  /-- The time that a writer reads if `turns` has no other one for its ticket. -/
  now : Instant
  first : List Nat := []
  turns : List (Nat × Instant) := []
  deriving DecidableEq, Repr, Inhabited

/-- The time that the writer with a ticket reads when it is woken. -/
def Moment.turn (m : Moment) (ticket : Nat) : Instant := (m.turns.lookup ticket).getD m.now

/-- Brings the writer with a ticket to the front. -/
def bringForward (ticket : Nat) (waiting : List Waiter) : List Waiter :=
  waiting.filter (·.ticket == ticket) ++ waiting.filter (!·.ticket == ticket)

/-- The waiting writers in the order in which they are woken. -/
def arrange (first : List Nat) (waiting : List Waiter) : List Waiter :=
  first.foldr bringForward waiting

theorem perm_bringForward (ticket : Nat) (waiting : List Waiter) :
    (bringForward ticket waiting).Perm waiting :=
  List.filter_append_perm _ waiting

/-- Waking in any order reaches the same writers. -/
theorem perm_arrange (first : List Nat) (waiting : List Waiter) :
    (arrange first waiting).Perm waiting := by
  induction first with
  | nil => exact List.Perm.refl _
  | cons ticket rest ih => exact (perm_bringForward ticket _).trans ih

namespace Course

/-- Several writers go through a pass, one after the other, each at the time of its turn. -/
def passAll (c : Course) (writers : List Waiter) (turn : Nat → Instant) : Course :=
  writers.foldl (fun c w => c.pass w (turn w.ticket)) c

@[simp] theorem passAll_nil (c : Course) (turn : Nat → Instant) : c.passAll [] turn = c := rfl

@[simp] theorem passAll_cons (c : Course) (w : Waiter) (ws : List Waiter)
    (turn : Nat → Instant) :
    c.passAll (w :: ws) turn = (c.pass w (turn w.ticket)).passAll ws turn := rfl

/-- Wakes every held writer; with none held nothing happens. -/
def wake (c : Course) (m : Moment) : Course :=
  if c.world.throttle.held = 0 then c
  else (c.record .wakeup).passAll (arrange m.first c.world.throttle.waiting) m.turn

/-- The time has come for a writer whose deadline has passed to go through a pass. -/
def expire (c : Course) (ticket : Nat) (now : Instant) : Course :=
  match c.world.throttle.waiting.find? (·.ticket == ticket) with
  | none => c
  | some w => if w.deadline.any (· ≤ now) then c.pass w now else c

/-! ## Hooks -/

/-- The next stage is called from outside a write; its hook for errors drains sessions. -/
def callNext (c : Course) (call : Call) : Course :=
  let called := c.note (.forwarded none call)
  match call with
  | .exception _ _ => { called with world := called.world.drain }
  | .write _ _ | .sent _ _ | .closed _ => called

/-- A call from outside comes to the end that the next stage gave it. -/
def answer (c : Course) (o : Outcome) : Course := c.note (.answered o)

/-- A message was sent. -/
def sent (c : Course) (session : Nat) (request : Request) (m : Moment) : Course :=
  let call := Call.sent session request
  ((c.wake m).callNext call).answer (c.world.stage.outcome call)

/-- An error comes through the pipeline. -/
def exception (c : Course) (session : Nat) (cause : StageError) (m : Moment) : Course :=
  let call := Call.exception session cause
  ((c.callNext call).wake m).answer (c.world.stage.outcome call)

/-- A session was closed. -/
def closed (c : Course) (session : Nat) (m : Moment) : Course :=
  let call := Call.closed session
  ((c.wake m).callNext call).answer (c.world.stage.outcome call)

/-- A stage without hooks of its own hands a call on. -/
def handOn (c : Course) (call : Call) : Course :=
  (c.callNext call).answer (c.world.stage.outcome call)

end Course

end Backpressure.Pipeline
