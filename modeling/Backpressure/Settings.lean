import Backpressure.Dimension
import Backpressure.Duration
import Backpressure.Policy
set_option autoImplicit false

/-!
# Settings

What a throttle is configured with: a policy, a limit for each dimension, the
shortest interval between two warnings and a bound on how long a writer is held.
Settings are plain data; they are chosen one by one on top of the defaults. A limit
that is zero or negative is no limit.
-/

namespace Backpressure

/-- The limits of a throttle that nobody configured. -/
def defaultLimits : Figures Int64 := ⟨4096, 65536, 131072, 134217728⟩

/-- The shortest interval between two warnings of a throttle that nobody configured. -/
def defaultLogInterval : Duration := Duration.ofSeconds 3

/-- The configuration of a throttle, as given by its user. -/
structure Settings where
  policy : Policy := .log
  limits : Figures Int64 := defaultLimits
  logInterval : Duration := defaultLogInterval
  blockTimeout : Option Duration := none
  deriving DecidableEq, Repr

namespace Settings

instance : Inhabited Settings := ⟨{}⟩

/-- One choice made on top of earlier settings. -/
inductive Choice where
  | policy (p : Policy)
  | limits (values : Figures Int64)
  | limit (d : Dimension) (value : Int64)
  | logInterval (interval : Duration)
  | blockTimeout (timeout : Option Duration)
  deriving DecidableEq, Repr

/-- The settings with one more choice made. -/
def choose (s : Settings) : Choice → Settings
  | .policy p => { s with policy := p }
  | .limits values => { s with limits := values }
  | .limit d value => { s with limits := s.limits.set d value }
  | .logInterval interval => { s with logInterval := interval }
  | .blockTimeout timeout => { s with blockTimeout := timeout }

/-- The settings after several choices, the last one on a field being the one that counts. -/
def chooseAll (s : Settings) (choices : List Choice) : Settings := choices.foldl choose s

@[simp] theorem chooseAll_nil (s : Settings) : s.chooseAll [] = s := rfl

@[simp] theorem chooseAll_cons (s : Settings) (c : Choice) (cs : List Choice) :
    s.chooseAll (c :: cs) = (s.choose c).chooseAll cs := rfl

end Settings

end Backpressure
