import Backpressure.Script.Play
set_option autoImplicit false

/-!
# Writing on a session with given readings

One session whose readings do not change is looked at and written on several times.
-/

namespace Backpressure.Script

open Backpressure.Pipeline

/-- A ledger with one session that shows given readings. -/
def ledgerOf (id : SessionId) (closing : Bool) (figures : Figures UInt64) : Ledger where
  services := [{ load := ⟨figures.globalMessages, figures.globalBytes⟩ }]
  sessions :=
    [{ id := id, service := 0, load := ⟨figures.localMessages, figures.localBytes⟩
       closing := closing }]

/-- What came of looking at a session and writing on it. -/
structure Evaluation where
  look : Look
  steps : List Step
  final : State

/-- Looks at a session and writes one message on it several times. -/
def evaluate (settings : Settings) (id : SessionId) (closing : Bool) (figures : Figures UInt64)
    (payload : Payload) (writes : Nat) : Evaluation :=
  let world : World :=
    { throttle := Throttle.ofSettings settings, ledger := ledgerOf id closing figures }
  let (steps, final) := play { world := world } (List.replicate writes (.write 0 payload))
  { look := world.look 0, steps := steps, final := final }

end Backpressure.Script
