import Backpressure.Duration
set_option autoImplicit false

/-!
# The warning gate

At most one warning per interval passes the gate. The gate remembers the instant of
the last admitted warning; the next one is admitted once strictly more than the
interval has passed, and a clock that went backwards counts as no time passed.
Instants are nanoseconds since an arbitrary origin.
-/

namespace Backpressure

/-- A point in time, in nanoseconds since an arbitrary origin. -/
abbrev Instant := Nat

/-- The gate that warnings go through, with the instant of the last one admitted. -/
structure WarnGate where
  last : Option Instant := none
  deriving DecidableEq, Repr

namespace WarnGate

instance : Inhabited WarnGate := ⟨{}⟩

/-- A warning may pass at an instant. -/
def admits (g : WarnGate) (now : Instant) (interval : Duration) : Bool :=
  match g.last with
  | none => true
  | some previous => interval.nanos < now - previous

/-- Asks for a warning to pass, which closes the gate behind it. -/
def ask (g : WarnGate) (now : Instant) (interval : Duration) : WarnGate × Bool :=
  if g.admits now interval then (⟨some now⟩, true) else (g, false)

/-- The answers to a sequence of calls. -/
def answers (g : WarnGate) : List (Instant × Duration) → List Bool
  | [] => []
  | (now, interval) :: rest =>
    let (g, admitted) := g.ask now interval
    admitted :: g.answers rest

/-- The gate after a sequence of calls. -/
def after (g : WarnGate) (calls : List (Instant × Duration)) : WarnGate :=
  calls.foldl (fun g call => (g.ask call.1 call.2).1) g

theorem ask_of_not_admits {g : WarnGate} {now : Instant} {interval : Duration}
    (h : g.admits now interval = false) : g.ask now interval = (g, false) := by
  simp [ask, h]

theorem ask_of_admits {g : WarnGate} {now : Instant} {interval : Duration}
    (h : g.admits now interval = true) : g.ask now interval = (⟨some now⟩, true) := by
  simp [ask, h]

theorem ask_fst (g : WarnGate) (now : Instant) (interval : Duration) :
    (g.ask now interval).1 = if g.admits now interval then ⟨some now⟩ else g := by
  unfold ask
  split <;> rfl

theorem ask_snd (g : WarnGate) (now : Instant) (interval : Duration) :
    (g.ask now interval).2 = g.admits now interval := by
  unfold ask
  cases g.admits now interval <;> rfl

@[simp] theorem length_answers (g : WarnGate) (calls : List (Instant × Duration)) :
    (g.answers calls).length = calls.length := by
  induction calls generalizing g with
  | nil => rfl
  | cons call rest ih => simp [answers, ih]

end WarnGate

end Backpressure
