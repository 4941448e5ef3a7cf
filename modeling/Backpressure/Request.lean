import Backpressure.Text.Decimal
set_option autoImplicit false

/-!
# Write requests

A request is the bytes to write under an identity of its own. Identities count up
from one source, a 64-bit word that wraps.
-/

namespace Backpressure

/-- The bytes of a message. -/
abbrev Payload := List UInt8

/-- A message on its way to the wire. -/
structure Request where
  id : UInt64
  payload : Payload
  deriving DecidableEq, Repr, Inhabited

namespace Request

/-- The number of bytes to write. -/
def length (r : Request) : Nat := r.payload.length

/-- There is nothing to write. -/
def isEmpty (r : Request) : Bool := r.payload.isEmpty

/-- The text of a request: its identity and its length. -/
def text (r : Request) : String :=
  "WriteRequest(" ++ Decimal.text r.id.toNat ++ ", " ++ Decimal.text r.length ++ " bytes)"

end Request

/-- The source of identities: the one that the next request gets. -/
structure Numbering where
  next : UInt64 := 1
  deriving DecidableEq, Repr

namespace Numbering

instance : Inhabited Numbering := ⟨{}⟩

/-- Makes a request with a fresh identity. -/
def issue (n : Numbering) (payload : Payload) : Request × Numbering :=
  (⟨n.next, payload⟩, ⟨n.next + 1⟩)

/-- Makes a request for each message, in order. -/
def issueAll (n : Numbering) : List Payload → List Request × Numbering
  | [] => ([], n)
  | p :: rest =>
    let (r, n) := n.issue p
    let (rs, n) := n.issueAll rest
    (r :: rs, n)

@[simp] theorem issue_payload (n : Numbering) (p : Payload) : (n.issue p).1.payload = p := rfl

end Numbering

end Backpressure
