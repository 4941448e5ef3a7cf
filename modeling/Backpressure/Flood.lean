import Backpressure.Dimension
import Backpressure.Text.Decimal
set_option autoImplicit false

/-!
# Flood reports

The one-line text that says how a throttled session stands: its load beside its
limit in each dimension. A limit of `0` is written `unlimited`.
-/

namespace Backpressure.Flood

/-- The word for a limit. -/
def limitText (limit : UInt64) : String :=
  if limit = 0 then "unlimited" else Decimal.text limit.toNat

/-- A load beside its limit, with the unit of both. -/
def usage (current limit : UInt64) (unit : String) : String :=
  Decimal.text current.toNat ++ " / " ++ limitText limit ++ " " ++ unit

/-- The report on a session with given loads under given limits. -/
def report (figures limits : Figures UInt64) : String :=
  "Write requests flooded - local: "
    ++ usage figures.localMessages limits.localMessages "msgs" ++ ", "
    ++ usage figures.localBytes limits.localBytes "bytes" ++ ", global: "
    ++ usage figures.globalMessages limits.globalMessages "msgs" ++ ", "
    ++ usage figures.globalBytes limits.globalBytes "bytes"

end Backpressure.Flood
