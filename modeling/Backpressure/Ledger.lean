import Backpressure.Readiness
import Backpressure.SessionId
set_option autoImplicit false

/-!
# The ledger of scheduled writes

Services own sessions. Scheduling a write adds one message and its bytes to the
session and to its service, completing one takes them off both. Counters are machine
words: adding wraps, and taking off stops at zero, for each counter on its own.
Services and sessions are addressed by their place in the ledger, in order of creation.
-/

namespace Backpressure

/-- What is left of `a` when up to `b` is taken off. -/
def saturatingSub (a b : UInt64) : UInt64 := if b ≤ a then a - b else 0

/-- Scheduled messages and bytes. -/
structure Load where
  messages : UInt64 := 0
  bytes : UInt64 := 0
  deriving DecidableEq, Repr, Inhabited

namespace Load

/-- One more message of so many bytes. -/
def add (l : Load) (bytes : UInt64) : Load := ⟨l.messages + 1, l.bytes + bytes⟩

/-- One message of so many bytes less. -/
def sub (l : Load) (bytes : UInt64) : Load :=
  ⟨saturatingSub l.messages 1, saturatingSub l.bytes bytes⟩

end Load

/-- A service: the load of all its sessions, and the last number it gave to one. -/
structure Service where
  load : Load := {}
  lastId : UInt64 := 0
  deriving DecidableEq, Repr, Inhabited

/-- A session of the service at a given place. It is lost as a whole: from then on every
reading of it fails, the first one of a look included. -/
structure Session where
  id : SessionId
  service : Nat
  load : Load := {}
  closing : Bool := false
  lost : Bool := false
  deriving DecidableEq, Repr, Inhabited

/-- Services and sessions in order of creation. -/
structure Ledger where
  services : List Service := []
  sessions : List Session := []
  deriving DecidableEq, Repr, Inhabited

namespace Ledger

/-! ## Entries -/

/-- An entry in the ledger. -/
inductive Entry where
  | openService
  | openSession (service : Nat)
  | schedule (session : Nat) (bytes : UInt64)
  | complete (session : Nat) (bytes : UInt64)
  | close (session : Nat)
  | lose (session : Nat)
  deriving DecidableEq, Repr

/-- Opens a service without sessions. -/
def openService (l : Ledger) : Ledger := { l with services := l.services ++ [{}] }

/-- Opens a session of a service, which gives it the next number. -/
def openSession (l : Ledger) (service : Nat) : Ledger :=
  match l.services[service]? with
  | none => l
  | some s =>
    { services := l.services.set service { s with lastId := s.lastId + 1 }
      sessions := l.sessions ++ [{ id := ⟨s.lastId + 1⟩, service := service }] }

/-- Changes the load of a session and that of its service in the same way. -/
def changeLoad (l : Ledger) (session : Nat) (change : Load → Load) : Ledger :=
  match l.sessions[session]? with
  | none => l
  | some x =>
    { services := l.services.modify x.service fun s => { s with load := change s.load }
      sessions := l.sessions.set session { x with load := change x.load } }

/-- Puts a write of so many bytes on the queue of a session. -/
def schedule (l : Ledger) (session : Nat) (bytes : UInt64) : Ledger :=
  l.changeLoad session (·.add bytes)

/-- Takes a write of so many bytes off the queue of a session. -/
def complete (l : Ledger) (session : Nat) (bytes : UInt64) : Ledger :=
  l.changeLoad session (·.sub bytes)

/-- Marks a session as closing. -/
def close (l : Ledger) (session : Nat) : Ledger :=
  { l with sessions := l.sessions.modify session fun x => { x with closing := true } }

/-- Marks a session as lost, for every reading at once. -/
def lose (l : Ledger) (session : Nat) : Ledger :=
  { l with sessions := l.sessions.modify session fun x => { x with lost := true } }

/-- The ledger with one more entry. -/
def post (l : Ledger) : Entry → Ledger
  | .openService => l.openService
  | .openSession service => l.openSession service
  | .schedule session bytes => l.schedule session bytes
  | .complete session bytes => l.complete session bytes
  | .close session => l.close session
  | .lose session => l.lose session

/-- The ledger with several more entries. -/
def postAll (l : Ledger) (entries : List Entry) : Ledger := entries.foldl post l

@[simp] theorem postAll_nil (l : Ledger) : l.postAll [] = l := rfl

@[simp] theorem postAll_cons (l : Ledger) (e : Entry) (es : List Entry) :
    l.postAll (e :: es) = (l.post e).postAll es := rfl

/-! ## Reading -/

/-- The load of a service; one that does not exist has none. -/
def serviceLoad (l : Ledger) (service : Nat) : Load :=
  (l.services[service]?.map Service.load).getD {}

/-- The load of a session beside that of its service. -/
def figures (l : Ledger) (x : Session) : Figures UInt64 where
  localMessages := x.load.messages
  localBytes := x.load.bytes
  globalMessages := (l.serviceLoad x.service).messages
  globalBytes := (l.serviceLoad x.service).bytes

/-- What a session shows when it is read; one that does not exist is lost. -/
def view (l : Ledger) (session : Nat) : View :=
  match l.sessions[session]? with
  | none => { lost := true, closing := false, figures := ⟨0, 0, 0, 0⟩ }
  | some x => { lost := x.lost, closing := x.closing, figures := l.figures x }

/-- The identity of a session. -/
def idOf (l : Ledger) (session : Nat) : SessionId :=
  (l.sessions[session]?.map Session.id).getD default

end Ledger

end Backpressure
