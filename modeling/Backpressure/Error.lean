import Backpressure.Duration
import Backpressure.Policy.Parse
import Backpressure.Request
set_option autoImplicit false

/-!
# Errors of the write path

A refused write carries its request back to the caller, so that nothing that was
handed in is lost. An error that any stage may return is a refused write, a rejected
configuration, a failed transport or something that a later stage came up with.
-/

namespace Backpressure

/-! ## Refused writes -/

/-- Why a write was refused, with the request that is handed back. -/
inductive Refusal where
  /-- The queues were full and the policy refuses at once. -/
  | overLimit (request : Request) (report : String)
  /-- The bound on a held write ran out. -/
  | timedOut (request : Request) (waited : Duration) (report : String)
  deriving DecidableEq, Repr

namespace Refusal

/-- The request that is handed back. -/
def request : Refusal → Request
  | overLimit r _ => r
  | timedOut r _ _ => r

/-- How the queues stood. -/
def report : Refusal → String
  | overLimit _ t => t
  | timedOut _ _ t => t

/-- The write was held before it was refused. -/
def isTimeout : Refusal → Bool
  | overLimit .. => false
  | timedOut .. => true

@[simp] theorem isTimeout_overLimit (r : Request) (t : String) :
    (overLimit r t).isTimeout = false := rfl

@[simp] theorem isTimeout_timedOut (r : Request) (d : Duration) (t : String) :
    (timedOut r d t).isTimeout = true := rfl

/-- The text of a refusal. -/
def message : Refusal → String
  | overLimit _ report => "too many scheduled writes: " ++ report
  | timedOut _ waited report =>
    "write blocked for " ++ waited.text ++ " without draining: " ++ report

end Refusal

/-! ## Failed transports -/

/-- What went wrong on the transport. -/
inductive TransportFault where
  | notFound
  | permissionDenied
  | connectionReset
  | brokenPipe
  | timedOut
  | writeZero
  | unexpectedEof
  | other
  deriving DecidableEq, Repr, Inhabited

/-- What a fault is called when nothing more is known. -/
def TransportFault.text : TransportFault → String
  | notFound => "entity not found"
  | permissionDenied => "permission denied"
  | connectionReset => "connection reset"
  | brokenPipe => "broken pipe"
  | timedOut => "timed out"
  | writeZero => "write zero"
  | unexpectedEof => "unexpected end of file"
  | other => "other error"

/-! ## Errors of a stage -/

/-- An error that a stage of the pipeline returns. -/
inductive StageError where
  | refused (refusal : Refusal)
  | config (fault : PolicyFault)
  | transport (fault : TransportFault) (detail : Option String)
  | other (text : String)
  deriving DecidableEq, Repr

namespace StageError

/-- The text of a failed transport: the detail where one is known. -/
def transportText (fault : TransportFault) (detail : Option String) : String :=
  detail.getD fault.text

/-- The text of an error. -/
def message : StageError → String
  | refused e => "write error: " ++ e.message
  | config e => "configuration error: " ++ e.message
  | transport fault detail => "i/o error: " ++ transportText fault detail
  | other text => "filter error: " ++ text

/-- The texts of the errors behind an error, outermost first. -/
def sources : StageError → List String
  | refused e => [e.message]
  | config e => [e.message]
  | transport fault detail => [transportText fault detail]
  | other _ => []

/-- The refused write, if the error is one. -/
def refusal? : StageError → Option Refusal
  | refused e => some e
  | config _ | transport .. | other _ => none

/-- The request that is handed back, if the error is a refused write. -/
def request? (e : StageError) : Option Request := e.refusal?.map Refusal.request

/-- The write was refused at once. -/
def isThrottled (e : StageError) : Bool := e.refusal?.any fun w => !w.isTimeout

/-- The write was held until its bound ran out. -/
def isTimeout (e : StageError) : Bool := e.refusal?.any Refusal.isTimeout

/-- The error is a refused write. -/
def isRefusal (e : StageError) : Bool := e.refusal?.isSome

/-- The error is a rejected configuration. -/
def isConfig : StageError → Bool
  | config _ => true
  | refused _ | transport .. | other _ => false

/-- The error is a failed transport. -/
def isTransport : StageError → Bool
  | transport .. => true
  | refused _ | config _ | other _ => false

end StageError

/-! ## Errors from outside -/

/-- An error that is still to be raised: its request does not exist yet. -/
inductive Cause where
  | overLimit (payload : Payload) (report : String)
  | timedOut (payload : Payload) (waited : Duration) (report : String)
  | config (fault : PolicyFault)
  | transport (fault : TransportFault) (detail : Option String)
  | other (text : String)
  deriving DecidableEq, Repr

/-- Raises an error, making the request that it carries. -/
def Cause.raise (n : Numbering) : Cause → StageError × Numbering
  | overLimit payload report =>
    let (r, n) := n.issue payload
    (.refused (.overLimit r report), n)
  | timedOut payload waited report =>
    let (r, n) := n.issue payload
    (.refused (.timedOut r waited report), n)
  | config e => (.config e, n)
  | transport fault detail => (.transport fault detail, n)
  | other text => (.other text, n)

end Backpressure
