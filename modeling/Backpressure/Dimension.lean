set_option autoImplicit false

/-!
# The four dimensions of load

A session's queue and the queues of the service that owns it are each measured in
messages and in bytes. `Figures` holds one value for each of these dimensions: a
reading, a limit or a setting.
-/

namespace Backpressure

/-- What load is measured in: messages or bytes, on one session or on its whole service. -/
inductive Dimension where
  | localMessages
  | localBytes
  | globalMessages
  | globalBytes
  deriving DecidableEq, Repr, Inhabited

/-- The dimensions in the order in which they are looked at and written. -/
def Dimension.all : List Dimension := [localMessages, localBytes, globalMessages, globalBytes]

theorem Dimension.mem_all (d : Dimension) : d ∈ all := by cases d <;> simp [all]

/-- One value for each dimension. -/
structure Figures (α : Type) where
  localMessages : α
  localBytes : α
  globalMessages : α
  globalBytes : α
  deriving DecidableEq, Repr, Inhabited

namespace Figures

variable {α β : Type}

/-- The value in one dimension. -/
def get (f : Figures α) : Dimension → α
  | .localMessages => f.localMessages
  | .localBytes => f.localBytes
  | .globalMessages => f.globalMessages
  | .globalBytes => f.globalBytes

/-- The figures with another value in one dimension. -/
def set (f : Figures α) (d : Dimension) (a : α) : Figures α :=
  match d with
  | .localMessages => { f with localMessages := a }
  | .localBytes => { f with localBytes := a }
  | .globalMessages => { f with globalMessages := a }
  | .globalBytes => { f with globalBytes := a }

/-- Each value changed by the same function. -/
def map (g : α → β) (f : Figures α) : Figures β :=
  ⟨g f.localMessages, g f.localBytes, g f.globalMessages, g f.globalBytes⟩

/-- The values in the order of `Dimension.all`. -/
def toList (f : Figures α) : List α :=
  [f.localMessages, f.localBytes, f.globalMessages, f.globalBytes]

@[simp] theorem get_map (g : α → β) (f : Figures α) (d : Dimension) :
    (f.map g).get d = g (f.get d) := by cases d <;> rfl

@[simp] theorem get_set_self (f : Figures α) (d : Dimension) (a : α) :
    (f.set d a).get d = a := by cases d <;> rfl

theorem get_set_of_ne {d e : Dimension} (h : e ≠ d) (f : Figures α) (a : α) :
    (f.set d a).get e = f.get e := by
  cases d <;> cases e <;> simp_all [get, set]

@[ext] theorem ext_get {f g : Figures α} (h : ∀ d, f.get d = g.get d) : f = g := by
  have h1 := h .localMessages
  have h2 := h .localBytes
  have h3 := h .globalMessages
  have h4 := h .globalBytes
  cases f; cases g
  simp_all [get]

end Figures

end Backpressure
