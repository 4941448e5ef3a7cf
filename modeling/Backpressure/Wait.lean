import Backpressure.Readiness
import Backpressure.WarnGate
set_option autoImplicit false

/-!
# Held writers

A held writer goes through passes. Each pass looks at the session and then, if a
deadline is set, at the clock: a ready session ends the wait, a deadline that has come
gives it up, and a session that cannot be read breaks it off. Anything else means to
wait for the next pass. Readiness is looked at first, so it wins over a deadline that
has passed.
-/

namespace Backpressure

/-- How a wait ended. -/
inductive WaitEnd where
  | ready
  | timedOut
  deriving DecidableEq, Repr, Inhabited

/-- The word for the end of a wait in the trace. -/
def WaitEnd.text : WaitEnd → String
  | ready => "Ready"
  | timedOut => "TimedOut"

/-- What a pass comes to. -/
inductive Progress where
  /-- The writer stays held. -/
  | stays
  /-- The wait is over. -/
  | ends (e : WaitEnd)
  /-- The session could not be read. -/
  | breaks
  deriving DecidableEq, Repr, Inhabited

namespace Wait

/-- The instant at which a wait is given up. -/
def deadline (start : Instant) (timeout : Option Duration) : Option Instant :=
  timeout.map (start + ·.nanos)

/-- One pass of a held writer. -/
def pass (deadline : Option Instant) (v : Verdict) (now : Instant) : Progress :=
  match v with
  | .ready => .ends .ready
  | .unreadable => .breaks
  | .flooded =>
    match deadline with
    | none => .stays
    | some d => if d ≤ now then .ends .timedOut else .stays

/-- The number of held writers when one more is held. -/
def enter (held : Nat) : Nat := held + 1

/-- The number of held writers when one of them leaves. -/
def leave (held : Nat) : Nat := held - 1

/-- What a pass of the loop sees: the session, then the clock. -/
structure Sight where
  verdict : Verdict
  now : Instant
  deriving DecidableEq, Repr, Inhabited

/-- How a blocking loop stands: the number of held writers, and how its last pass
came out, with the number of that pass, unless it still waits for another one. -/
structure Loop where
  held : Nat
  finished : Option (Nat × Progress)
  deriving DecidableEq, Repr, Inhabited

/-- Goes through passes until one does not stay; passes are numbered from `number`. -/
def passes (deadline : Option Instant) (number : Nat) : List Sight → Option (Nat × Progress)
  | [] => none
  | s :: rest =>
    match pass deadline s.verdict s.now with
    | .stays => passes deadline (number + 1) rest
    | .ends e => some (number, .ends e)
    | .breaks => some (number, .breaks)

/-- Holds a writer from `start` on, for as many passes as it takes. -/
def run (held : Nat) (start : Instant) (timeout : Option Duration)
    (sights : List Sight) : Loop :=
  match passes (deadline start timeout) 0 sights with
  | none => ⟨enter held, none⟩
  | some finish => ⟨leave (enter held), some finish⟩

theorem pass_eq_ready_iff {deadline : Option Instant} {v : Verdict} {now : Instant} :
    pass deadline v now = .ends .ready ↔ v = .ready := by
  cases v <;> cases deadline <;> simp [pass]
  split <;> simp

theorem pass_eq_breaks_iff {deadline : Option Instant} {v : Verdict} {now : Instant} :
    pass deadline v now = .breaks ↔ v = .unreadable := by
  cases v <;> cases deadline <;> simp [pass]
  split <;> simp

theorem pass_eq_stays_iff {deadline : Option Instant} {v : Verdict} {now : Instant} :
    pass deadline v now = .stays ↔ v = .flooded ∧ ∀ d, deadline = some d → now < d := by
  cases v <;> cases deadline <;> simp [pass]

theorem pass_eq_timedOut_iff {deadline : Option Instant} {v : Verdict} {now : Instant} :
    pass deadline v now = .ends .timedOut ↔
      v = .flooded ∧ ∃ d, deadline = some d ∧ d ≤ now := by
  cases v <;> cases deadline <;> simp [pass]

end Wait

end Backpressure
