import Backpressure.Error
set_option autoImplicit false

/-!
# The next stage

What stands behind the throttle in the pipeline: four hooks, each of which either
accepts a call, refuses it with an error or crashes. The hook for writes may answer each
write in its own way, by the session and the request that it gets: beside its usual reply
it has a list of the writes that get another one. The hook for errors may also hand the
error back, and it may complete writes on sessions while it runs, each of them once.
-/

namespace Backpressure.Pipeline

/-- How a call of a hook came out. -/
inductive Outcome where
  | done
  | failed (error : StageError)
  | crashed (message : String)
  deriving DecidableEq, Repr

/-- A call of a hook, for the session at a place in the ledger. -/
inductive Call where
  | write (session : Nat) (request : Request)
  | sent (session : Nat) (request : Request)
  | exception (session : Nat) (cause : StageError)
  | closed (session : Nat)
  deriving DecidableEq, Repr

/-- The session that a call is for. -/
def Call.session : Call → Nat
  | write s _ => s
  | sent s _ => s
  | exception s _ => s
  | closed s => s

/-- How a hook answers. -/
inductive Reply where
  | accept
  | refuse (error : StageError)
  | crash (message : String)
  deriving DecidableEq, Repr

instance : Inhabited Reply := ⟨.accept⟩

/-- The outcome of a call that gets a reply. -/
def Reply.outcome : Reply → Outcome
  | accept => .done
  | refuse e => .failed e
  | crash message => .crashed message

/-- How the hook for errors answers. -/
inductive CauseReply where
  | plain (reply : Reply)
  /-- The call fails with the error that it was about. -/
  | handBack
  deriving DecidableEq, Repr

instance : Inhabited CauseReply := ⟨.plain .accept⟩

/-- The outcome of a call about an error. -/
def CauseReply.outcome (cause : StageError) : CauseReply → Outcome
  | plain reply => reply.outcome
  | handBack => .failed cause

/-- A reply to the writes of a message on a session. -/
structure WriteReply where
  session : Nat
  payload : Payload
  /-- The identity that the request must have; without one any request will do. -/
  id : Option UInt64 := none
  reply : Reply
  deriving DecidableEq, Repr, Inhabited

/-- The reply is meant for a write. -/
def WriteReply.fits (w : WriteReply) (session : Nat) (request : Request) : Bool :=
  w.session == session && w.payload == request.payload && w.id.all (· == request.id)

/-- A write to complete on a session. -/
structure Drain where
  session : Nat
  bytes : UInt64
  deriving DecidableEq, Repr, Inhabited

/-- The next stage: how its hooks answer, and the writes that its hook for errors
completes, in order, the next time it runs. -/
structure Stage where
  /-- The reply to a write that is not singled out. -/
  write : Reply := .accept
  singled : List WriteReply := []
  sent : Reply := .accept
  exception : CauseReply := .plain .accept
  closed : Reply := .accept
  drains : List Drain := []
  deriving DecidableEq, Repr

instance : Inhabited Stage := ⟨{}⟩

/-- The reply to a write: the first one that is meant for it, else the usual one. -/
def Stage.replyTo (s : Stage) (session : Nat) (request : Request) : Reply :=
  match s.singled.find? (·.fits session request) with
  | some w => w.reply
  | none => s.write

/-- How a call of the next stage comes out. -/
def Stage.outcome (s : Stage) : Call → Outcome
  | .write session request => (s.replyTo session request).outcome
  | .sent _ _ => s.sent.outcome
  | .exception _ cause => s.exception.outcome cause
  | .closed _ => s.closed.outcome

end Backpressure.Pipeline
