set_option autoImplicit false

/-!
# Throttle policies

What happens to a write that finds its session over a limit. Each policy has a
canonical name and a code of one byte; names and codes are pairwise different.
-/

namespace Backpressure

/-- What a throttle does with a write on a session that is over a limit: nothing,
let it pass with a warning, hold it, hold it with a warning, or refuse it. -/
inductive Policy where
  | off
  | log
  | block
  | logAndBlock
  | exception
  deriving DecidableEq, Repr

namespace Policy

/-- The policy of a throttle that nobody configured lets writes pass with a warning. -/
instance : Inhabited Policy := ⟨log⟩

/-- Every policy, in the order of the codes. -/
def all : List Policy := [off, log, block, logAndBlock, exception]

/-- The canonical name. -/
def name : Policy → String
  | off => "off"
  | log => "log"
  | block => "block"
  | logAndBlock => "log_and_block"
  | exception => "exception"

/-- The byte that a policy is stored as. -/
def code : Policy → UInt8
  | off => 0
  | log => 1
  | block => 2
  | logAndBlock => 3
  | exception => 4

/-- The policy with a given code. -/
def ofCode? (raw : UInt8) : Option Policy := all.find? (·.code == raw)

/-- The policy with a given canonical name. -/
def ofName? (text : List Char) : Option Policy := all.find? (·.name.toList == text)

/-- The policy warns about a throttled write. -/
def warns : Policy → Bool
  | log | logAndBlock => true
  | off | block | exception => false

/-- The policy holds a throttled write. -/
def holds : Policy → Bool
  | block | logAndBlock => true
  | off | log | exception => false

theorem mem_all (p : Policy) : p ∈ all := by cases p <;> simp [all]

@[simp] theorem ofCode?_code (p : Policy) : ofCode? p.code = some p := by
  cases p <;> rfl

@[simp] theorem ofName?_name (p : Policy) : ofName? p.name.toList = some p := by
  cases p <;> decide

end Policy

end Backpressure
