import Backpressure.Settings
import Backpressure.Policy.Parse
set_option autoImplicit false

/-!
# The live configuration

A running throttle reads its configuration from seven registers, each one machine
word, so that any of them can be replaced while writers run. The policy is kept as
its code, and no other byte is ever stored there; a limit is kept as an unsigned number
with `0` for no limit, and a duration as nanoseconds. The largest word stands for "no bound on a held write"; every duration
is cut below it, so that a long bound is never mistaken for none.

`Config.change` is the only way in which a configuration changes, and a rejected
change leaves it as it was.
-/

namespace Backpressure

/-- The word that stands for the absence of a bound. -/
def noBound : UInt64 := 0xFFFF_FFFF_FFFF_FFFF

/-- A duration as a word of nanoseconds, cut below `noBound`. -/
def Duration.word (d : Duration) : UInt64 := UInt64.ofNat (min d.nanos 0xFFFF_FFFF_FFFF_FFFE)

/-- The duration of a word of nanoseconds. -/
def Duration.ofWord (w : UInt64) : Duration :=
  ⟨w.toNat, Nat.lt_of_lt_of_le w.toNat_lt (by decide)⟩

/-- A chosen limit as it is stored: a negative one is no limit. -/
def storedLimit (value : Int64) : UInt64 := UInt64.ofNat value.toInt.toNat

/-- A stored limit as a setting, cut at the largest signed word. -/
def signedLimit (stored : UInt64) : Int64 := Int64.ofInt (min stored.toNat 0x7FFF_FFFF_FFFF_FFFF : Nat)

/-- The seven registers of a running throttle. -/
structure Config where
  policyCode : UInt8 := 0
  limits : Figures UInt64 := ⟨0, 0, 0, 0⟩
  logIntervalWord : UInt64 := 0
  blockTimeoutWord : UInt64 := noBound
  isSome_policy : (Policy.ofCode? policyCode).isSome = true := by rfl
  deriving DecidableEq, Repr

namespace Config

/-! ## Reading -/

/-- The policy in force. -/
def policy (c : Config) : Policy := (Policy.ofCode? c.policyCode).get c.isSome_policy

/-- The shortest interval between two warnings. -/
def logInterval (c : Config) : Duration := Duration.ofWord c.logIntervalWord

/-- The bound on how long a writer is held. -/
def blockTimeout (c : Config) : Option Duration :=
  if c.blockTimeoutWord = noBound then none else some (Duration.ofWord c.blockTimeoutWord)

/-- The registers as settings. -/
def toSettings (c : Config) : Settings where
  policy := c.policy
  limits := c.limits.map signedLimit
  logInterval := c.logInterval
  blockTimeout := c.blockTimeout

/-! ## Writing -/

/-- Stores a policy. -/
def setPolicy (c : Config) (p : Policy) : Config :=
  { c with policyCode := p.code, isSome_policy := by rw [Policy.ofCode?_code]; rfl }

/-- Stores the limit in one dimension. -/
def setLimit (c : Config) (d : Dimension) (value : Int64) : Config :=
  { c with limits := c.limits.set d (storedLimit value) }

/-- Stores the shortest interval between two warnings. -/
def setLogInterval (c : Config) (interval : Duration) : Config :=
  { c with logIntervalWord := interval.word }

/-- Stores the bound on how long a writer is held. -/
def setBlockTimeout (c : Config) (timeout : Option Duration) : Config :=
  { c with blockTimeoutWord := (timeout.map Duration.word).getD noBound }

/-- Stores settings, one register after the other. -/
def setAll (c : Config) (s : Settings) : Config :=
  let limit (c : Config) (d : Dimension) : Config := c.setLimit d (s.limits.get d)
  let limited := Dimension.all.foldl limit (c.setPolicy s.policy)
  (limited.setLogInterval s.logInterval).setBlockTimeout s.blockTimeout

/-- The configuration that a throttle with given settings starts with. -/
def ofSettings (s : Settings) : Config := ({} : Config).setAll s

instance : Inhabited Config := ⟨ofSettings {}⟩

/-! ## Changes -/

/-- A change that is asked for while the throttle runs. -/
inductive Change where
  | policy (p : Policy)
  | policyIfGiven (p : Option Policy)
  | policyNamed (text : String)
  | limit (d : Dimension) (value : Int64)
  | logInterval (interval : Duration)
  | blockTimeout (timeout : Option Duration)
  | settings (s : Settings)
  deriving DecidableEq, Repr

/-- The configuration after a change, or why the change is rejected. -/
def change (c : Config) : Change → Except PolicyFault Config
  | .policy p => .ok (c.setPolicy p)
  | .policyIfGiven none => .error .missing
  | .policyIfGiven (some p) => .ok (c.setPolicy p)
  | .policyNamed text =>
    match Policy.parse text with
    | .error e => .error e
    | .ok p => .ok (c.setPolicy p)
  | .limit d value => .ok (c.setLimit d value)
  | .logInterval interval => .ok (c.setLogInterval interval)
  | .blockTimeout timeout => .ok (c.setBlockTimeout timeout)
  | .settings s => .ok (c.setAll s)

/-- The configuration after a change that may be rejected. -/
def update (c : Config) (ch : Change) : Config :=
  match c.change ch with
  | .ok changed => changed
  | .error _ => c

/-- The configuration after several changes, rejected ones included. -/
def updateAll (c : Config) (changes : List Change) : Config := changes.foldl update c

@[simp] theorem updateAll_nil (c : Config) : c.updateAll [] = c := rfl

@[simp] theorem updateAll_cons (c : Config) (ch : Change) (chs : List Change) :
    c.updateAll (ch :: chs) = (c.update ch).updateAll chs := rfl

/-! ## What a change shows -/

/-- The register that a change wrote, read back. -/
inductive Shown where
  | nothing
  | limit (stored : UInt64)
  | interval (d : Duration)
  | timeout (d : Option Duration)
  deriving DecidableEq, Repr

/-- What is read back after a change; policies and whole settings are not read back. -/
def readBack (c : Config) : Change → Shown
  | .limit d _ => .limit (c.limits.get d)
  | .logInterval _ => .interval c.logInterval
  | .blockTimeout _ => .timeout c.blockTimeout
  | .policy _ | .policyIfGiven _ | .policyNamed _ | .settings _ => .nothing

/-! ## Registers after writing -/

/-- The code that is stored is that of a policy, which is the one in force. -/
theorem ofCode?_policyCode (c : Config) : Policy.ofCode? c.policyCode = some c.policy :=
  (Option.some_get c.isSome_policy).symm

@[simp] theorem policy_setPolicy (c : Config) (p : Policy) : (c.setPolicy p).policy = p := by
  simp [policy, setPolicy]

theorem update_of_error {c : Config} {ch : Change} {e : PolicyFault}
    (h : c.change ch = .error e) : c.update ch = c := by
  simp [update, h]

end Config

/-- The live changes that do the same as a choice of settings. -/
def Settings.Choice.changes : Settings.Choice → List Config.Change
  | .policy p => [.policy p]
  | .limits values => Dimension.all.map fun d => .limit d (values.get d)
  | .limit d value => [.limit d value]
  | .logInterval interval => [.logInterval interval]
  | .blockTimeout timeout => [.blockTimeout timeout]

end Backpressure
