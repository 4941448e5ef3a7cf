import Backpressure.Pipeline.Run
set_option autoImplicit false

/-!
# Scripts

A script drives one pipeline by operations, one after the other, on a clock of its
own, and reports after each operation what came of it. Writers that go through the
throttle one at a time are numbered from `1`; number `0` stands for the script itself.
-/

namespace Backpressure.Script

open Backpressure.Pipeline

/-- A hook of the next stage. -/
inductive Hook where
  | write
  | sent
  | exception
  | closed
  deriving DecidableEq, Repr, Inhabited

/-- The name of a hook. -/
def Hook.text : Hook → String
  | write => "write"
  | sent => "sent"
  | exception => "exception"
  | closed => "closed"

/-- How a hook is to behave from now on. -/
inductive Mode where
  | accept
  | fail
  | crash
  deriving DecidableEq, Repr, Inhabited

/-- How a hook in some mode answers. -/
def Mode.reply (h : Hook) : Mode → Reply
  | accept => .accept
  | fail => .refuse (.other ("next failed: " ++ h.text))
  | crash => .crash ("next panicked: " ++ h.text)

/-- How the hook for errors in some mode answers; a failing one hands the error back. -/
def Mode.causeReply : Mode → CauseReply
  | accept => .plain (accept.reply .exception)
  | fail => .handBack
  | crash => .plain (crash.reply .exception)

/-- The next stage with one hook in another mode. -/
def directed (s : Stage) (m : Mode) : Hook → Stage
  | .write => { s with write := m.reply .write }
  | .sent => { s with sent := m.reply .sent }
  | .exception => { s with exception := m.causeReply }
  | .closed => { s with closed := m.reply .closed }

/-- A call that a stage without hooks of its own hands on. -/
inductive Relay where
  | write (session : Nat) (payload : Payload)
  | sent (session : Nat) (payload : Payload)
  | exception (session : Nat) (cause : Cause)
  | closed (session : Nat)
  deriving DecidableEq, Repr

/-- The call in a world, which gets the request or the error made for it. -/
def Relay.call (w : World) : Relay → Call × World
  | write session payload => let (r, w) := w.issue payload; (.write session r, w)
  | sent session payload => let (r, w) := w.issue payload; (.sent session r, w)
  | exception session cause => let (e, w) := w.raise cause; (.exception session e, w)
  | closed session => (.closed session, w)

/-- One operation of a script. -/
inductive Op where
  | openService
  | openSession (service : Nat)
  | schedule (session : Nat) (bytes : UInt64) (times : Nat)
  | complete (session : Nat) (bytes : UInt64) (times : Nat)
  | close (session : Nat)
  | lose (session : Nat)
  | configure (change : Config.Change)
  | ready (session : Nat)
  | standing
  | sleep (ms : Nat)
  | next (hook : Hook) (mode : Mode)
  | drainOnException (drain : Drain)
  | write (session : Nat) (payload : Payload)
  | wake
  | sent (session : Nat) (payload : Payload)
  | exception (session : Nat) (cause : Cause)
  | closed (session : Nat)
  /-- So many threads write so many empty messages each. -/
  | burst (session threads each : Nat)
  | relay (relay : Relay)
  deriving DecidableEq, Repr

/-- The outcome of a call, and whether a held write that was refused had waited for at
least the bound then in force. -/
structure Result where
  outcome : Outcome
  waitedLongEnough : Option Bool := none
  deriving DecidableEq, Repr

/-- What an operation gives back. -/
inductive Answer where
  | nothing
  | session (id : SessionId)
  | loads (session service : Load)
  | changed (shown : Config.Shown)
  | rejected (error : PolicyFault)
  | verdict (v : Verdict)
  | standing (isBlocking : Bool) (failedWrites : UInt64) (policy : Policy)
  | result (r : Result)
  | held (writer : Nat)
  | burst (passed arrived : Nat)
  deriving DecidableEq, Repr

/-- A call that reached the next stage, and how many wakes there had been. -/
structure Arrival where
  writer : Nat
  session : SessionId
  call : Call
  wakeups : UInt64
  deriving DecidableEq, Repr

/-- What came of one operation. -/
structure Step where
  answer : Answer
  metrics : Metrics
  released : List (Nat × Result)
  arrivals : List Arrival
  events : List (Nat × Event)
  /-- A write had its session looked at. -/
  looked : Bool
  deriving DecidableEq, Repr

end Backpressure.Script
