import Backpressure.Proofs.Loads
import Backpressure.Proofs.Registers
import Backpressure.Script.Play
import Mathlib.Order.WithBot
set_option autoImplicit false

/-!
# Looking at a session

A look takes its readings in a fixed order and stops as early as it can: at the first one if the
session is closing, and otherwise behind the first figure that its limit does not allow. What it
comes to does not depend on the order: the session is ready if it is closing or every figure is
within its limit.

A limit of `0` stands for none, so limits are not ordered as numbers are. Their `ceiling` is: it
is the limit as a number, and above all numbers if there is no limit, as for every setting that
is zero or negative. Then less load and higher ceilings leave a ready session ready.
-/

namespace Backpressure

/-! ## Ceilings -/

/-- The number below which a stored limit keeps the load. -/
def ceiling (limit : UInt64) : WithTop Nat :=
  if limit = 0 then ⊤ else WithTop.some limit.toNat

/-- The number below which a limit that is chosen keeps the load. -/
def chosenCeiling (value : Int64) : WithTop Nat :=
  if value ≤ 0 then ⊤ else WithTop.some value.toInt.toNat

theorem ceiling_storedLimit (value : Int64) :
    ceiling (storedLimit value) = chosenCeiling value := by
  have hstored := toNat_storedLimit value
  have hzero : storedLimit value = 0 ↔ value ≤ 0 := by
    rw [← UInt64.toNat_inj, UInt64.toNat_zero, Int64.le_iff_toInt_le, Int64.toInt_zero]
    omega
  unfold ceiling chosenCeiling
  by_cases hvalue : value ≤ 0
  · rw [if_pos hvalue, if_pos (hzero.mpr hvalue)]
  · rw [if_neg hvalue, if_neg (mt hzero.mp hvalue)]
    exact congrArg WithTop.some (by omega)

namespace Readiness

variable {limits others figures : Figures UInt64} {v : View} {ds : List Dimension}

/-- A limit allows the loads below its ceiling. -/
theorem allows_iff_lt_ceiling {limit current : UInt64} :
    allows limit current = true ↔ WithTop.some current.toNat < ceiling limit := by
  rw [allows_iff, ceiling]
  split
  · rename_i hzero
    exact ⟨fun _ => WithTop.coe_lt_top _, fun _ => .inl hzero⟩
  · rename_i hlimit
    rw [WithTop.coe_lt_coe, ← UInt64.lt_iff_toNat_lt]
    exact ⟨fun h => h.resolve_left hlimit, .inr⟩

/-- A session stays ready under higher ceilings. -/
theorem ready_of_ceiling_le (h : verdict limits v = .ready)
    (hle : ∀ d, ceiling (limits.get d) ≤ ceiling (others.get d)) : verdict others v = .ready := by
  rw [verdict_eq_ready_iff] at h ⊢
  obtain ⟨hlost, hready⟩ := h
  refine ⟨hlost, hready.imp_right fun hallows d => ?_⟩
  exact allows_iff_lt_ceiling.mpr (lt_of_lt_of_le (allows_iff_lt_ceiling.mp (hallows d)) (hle d))

/-! ## Readings -/

/-- A figure is within its limit: there is none, or the figure is below it. -/
def Within (limits figures : Figures UInt64) (d : Dimension) : Prop :=
  limits.get d = 0 ∨ figures.get d < limits.get d

theorem allows_iff_within {d : Dimension} :
    allows (limits.get d) (figures.get d) = true ↔ Within limits figures d := allows_iff

theorem scan_of_within (h : ∀ d ∈ ds, Within limits figures d) :
    scan limits figures ds = ⟨ds.map .figure, .ready⟩ := by
  induction ds with
  | nil => rfl
  | cons d rest ih =>
    obtain ⟨hd, hrest⟩ := List.forall_mem_cons.mp h
    rw [scan, if_pos (allows_iff_within.mpr hd), ih hrest]
    rfl

/-- The scan stops behind the first figure that is not within its limit. -/
theorem scan_of_not_within {before after : List Dimension} {d : Dimension}
    (hbefore : ∀ e ∈ before, Within limits figures e) (hd : ¬ Within limits figures d) :
    scan limits figures (before ++ d :: after) = ⟨(before ++ [d]).map .figure, .flooded⟩ := by
  induction before with
  | nil =>
    rw [List.nil_append, scan, if_neg (mt allows_iff_within.mp hd)]
    rfl
  | cons e rest ih =>
    obtain ⟨he, hrest⟩ := List.forall_mem_cons.mp hbefore
    rw [List.cons_append, scan, if_pos (allows_iff_within.mpr he), ih hrest]
    rfl

theorem scan_takes_in_order (ds : List Dimension) :
    (scan limits figures ds).taken <+: ds.map .figure := by
  induction ds with
  | nil => exact List.prefix_rfl
  | cons d rest ih =>
    rw [scan]
    split
    · exact List.cons_prefix_cons.mpr ⟨rfl, ih⟩
    · exact List.cons_prefix_cons.mpr ⟨rfl, List.nil_prefix⟩

theorem examine_of_open (hlost : v.lost = false) (hopen : v.closing = false) :
    examine limits v =
      ⟨.closing :: (scan limits v.figures Dimension.all).taken,
        (scan limits v.figures Dimension.all).verdict⟩ := by
  simp [examine, hlost, hopen]

/-- A look takes a first part of the readings that there are, in their order. -/
theorem examine_takes_in_order (limits : Figures UInt64) (v : View) :
    (examine limits v).taken <+: .closing :: Dimension.all.map .figure := by
  rw [examine]
  split
  · exact List.cons_prefix_cons.mpr ⟨rfl, List.nil_prefix⟩
  · split
    · exact List.cons_prefix_cons.mpr ⟨rfl, List.nil_prefix⟩
    · exact List.cons_prefix_cons.mpr ⟨rfl, scan_takes_in_order Dimension.all⟩

theorem verdict_ne_unreadable (limits : Figures UInt64) (hlost : v.lost = false) :
    verdict limits v ≠ .unreadable := by
  unfold verdict
  cases hclosing : v.closing with
  | true => simp [examine_of_closing hlost hclosing]
  | false =>
    rw [examine_of_open hlost hclosing, scan_verdict]
    split <;> simp

/-- Under every configuration that changes lead to, a session is ready exactly if it is closing or
each of its figures is within its limit, where the limit `0` holds for every figure. The readings
are taken in a fixed order, none of them twice, and only as many as are needed: the first one if
the session is closing, else those up to the first figure that is not within its limit. Asking
whether a session is ready leaves the world as it is and tells a recorder nothing. A ready session
stays ready when its figures fall and ceilings rise, in whichever dimensions; the ceiling of a
setting that is zero or negative is above all others. -/
theorem ready_iff_within_limits (s : Settings) (changes : List Config.Change) (closing : Bool)
    (figures : Figures UInt64) :
    let c := (Config.ofSettings s).updateAll changes
    let look := examine c.limits { closing, figures }
    (look.verdict = .ready ↔ closing = true ∨ ∀ d, Within c.limits figures d) ∧
      look.verdict ≠ .unreadable ∧
      look.taken <+: [.closing, .figure .localMessages, .figure .localBytes,
        .figure .globalMessages, .figure .globalBytes] ∧
      look.taken.Nodup ∧
      (closing = true → look.taken = [.closing]) ∧
      (closing = false → (∀ d, Within c.limits figures d) →
        look.taken = .closing :: Dimension.all.map .figure) ∧
      (closing = false → ∀ before d after, Dimension.all = before ++ d :: after →
        (∀ e ∈ before, Within c.limits figures e) → ¬ Within c.limits figures d →
        look.taken = .closing :: (before ++ [d]).map .figure) ∧
      (∀ (state : Script.State) (session : Nat),
        let (result, after) := Script.step state (.ready session)
        result.answer = .verdict (verdict state.world.throttle.config.limits
            (state.world.ledger.view session)) ∧
          after.world = state.world ∧ after.told = state.told) ∧
      (∀ (t : Settings) (more : List Config.Change) (lower : Figures UInt64),
        let raised := (Config.ofSettings t).updateAll more
        (∀ d, lower.get d ≤ figures.get d) →
        (∀ d, ceiling (c.limits.get d) ≤ ceiling (raised.limits.get d)) →
        look.verdict = .ready →
        (examine raised.limits { closing, figures := lower }).verdict = .ready) ∧
      (∀ d value, ceiling ((c.update (.limit d value)).limits.get d) = chosenCeiling value) ∧
      ∀ d t, ceiling ((c.update (.settings t)).limits.get d) = chosenCeiling (t.limits.get d) := by
  intro c look
  refine ⟨?_, verdict_ne_unreadable c.limits rfl, examine_takes_in_order c.limits _, ?_, ?_, ?_, ?_,
    fun state session => ⟨rfl, rfl, rfl⟩, ?_, ?_, ?_⟩
  · have hready : look.verdict = .ready ↔
        _ ∧ (closing = true ∨ ∀ d, allows (c.limits.get d) (figures.get d) = true) :=
      verdict_eq_ready_iff
    simpa only [allows_iff_within, true_and] using hready
  · exact (examine_takes_in_order c.limits _).sublist.nodup (by decide)
  · rintro rfl
    exact congrArg Look.taken (examine_of_closing rfl rfl)
  · rintro rfl hall
    have hlook : look = _ := examine_of_open rfl rfl
    rw [hlook, scan_of_within fun d _ => hall d]
  · rintro rfl before d after horder hbefore hd
    have hlook : look = _ := examine_of_open rfl rfl
    rw [hlook, horder, scan_of_not_within hbefore hd]
  · intro t more lower raised hlower hraised hready
    exact ready_of_ceiling_le (ready_of_le hready rfl rfl hlower) hraised
  · intro d value
    have hlimit : (c.update (.limit d value)).limits.get d = storedLimit value :=
      Figures.get_set_self c.limits d (storedLimit value)
    rw [hlimit, ceiling_storedLimit]
  · intro d t
    have hlimit : (c.update (.settings t)).limits.get d = storedLimit (t.limits.get d) :=
      Figures.get_map storedLimit t.limits d
    rw [hlimit, ceiling_storedLimit]

/-- The bytes of the session reach their limit, so its service is not looked at. -/
example :
    examine ⟨5, 3, 0, 1⟩ { closing := false, figures := ⟨4, 3, 9, 9⟩ } =
      ⟨[.closing, .figure .localMessages, .figure .localBytes], .flooded⟩ := by
  decide

end Readiness

end Backpressure
