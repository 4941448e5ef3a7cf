import Backpressure.Dimension
set_option autoImplicit false

/-!
# Readiness

A session is looked at through at most five readings, taken in a fixed order:
whether it is closing, then its load in each dimension. A session that is closing is
ready without any further reading; otherwise it is ready when every limit allows the
load, and looking stops at the first one that does not.

A session can be lost, and then it is lost as a whole: none of its readings succeeds, so
a look at it fails at the first one. A session that is not lost gives every reading; one
that would fail at some readings and not at others has no view here.
-/

namespace Backpressure

/-- A limit allows the loads below it; the limit `0` allows every load. -/
def allows (limit current : UInt64) : Bool := limit == 0 || current < limit

/-- What a session shows when it is read. -/
structure View where
  /-- Every reading fails. -/
  lost : Bool := false
  closing : Bool
  figures : Figures UInt64
  deriving DecidableEq, Repr, Inhabited

/-- One reading of a session. -/
inductive Reading where
  | closing
  | figure (d : Dimension)
  deriving DecidableEq, Repr, Inhabited

/-- What looking at a session shows. -/
inductive Verdict where
  /-- A write may go on. -/
  | ready
  /-- A limit is reached. -/
  | flooded
  /-- The session could not be read. -/
  | unreadable
  deriving DecidableEq, Repr, Inhabited

/-- One look at a session: the readings taken, in order, and the verdict. -/
structure Look where
  taken : List Reading
  verdict : Verdict
  deriving DecidableEq, Repr, Inhabited

namespace Readiness

/-- Reads load after load, up to the first one that its limit does not allow. -/
def scan (limits figures : Figures UInt64) : List Dimension → Look
  | [] => ⟨[], .ready⟩
  | d :: rest =>
    if allows (limits.get d) (figures.get d) then
      let look := scan limits figures rest
      ⟨.figure d :: look.taken, look.verdict⟩
    else ⟨[.figure d], .flooded⟩

/-- Looks at a session. -/
def examine (limits : Figures UInt64) (v : View) : Look :=
  if v.lost then ⟨[.closing], .unreadable⟩
  else if v.closing then ⟨[.closing], .ready⟩
  else
    let look := scan limits v.figures Dimension.all
    ⟨.closing :: look.taken, look.verdict⟩

/-- What one look at a session shows. -/
def verdict (limits : Figures UInt64) (v : View) : Verdict := (examine limits v).verdict

theorem allows_zero (current : UInt64) : allows 0 current = true := rfl

theorem allows_iff {limit current : UInt64} :
    allows limit current = true ↔ limit = 0 ∨ current < limit := by
  simp [allows]

theorem scan_verdict (limits figures : Figures UInt64) (ds : List Dimension) :
    (scan limits figures ds).verdict =
      if ds.all fun d => allows (limits.get d) (figures.get d) then .ready else .flooded := by
  induction ds with
  | nil => rfl
  | cons d rest ih =>
    simp only [scan]
    split <;> simp_all

theorem examine_of_closing {limits : Figures UInt64} {v : View}
    (hl : v.lost = false) (hc : v.closing = true) :
    examine limits v = ⟨[.closing], .ready⟩ := by
  simp [examine, hl, hc]

end Readiness

end Backpressure
