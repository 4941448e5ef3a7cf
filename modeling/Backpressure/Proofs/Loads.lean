import Backpressure.Config
import Backpressure.Ledger
set_option autoImplicit false

/-!
# Loads and readiness

A queue is measured in messages and in bytes. Both counters of a queue move in the same
way when a write is scheduled or completed, each by its own amount, so what is said about
one `Measure` holds of the other.

Completing a write never raises a figure of any session, so it leaves every ready session
ready. Scheduling a write never lowers one as long as no counter runs over, so it leaves
every session throttled that was. A counter that runs over starts again at zero, and then
a throttled session becomes ready by being given more to write.
-/

namespace Backpressure

theorem toNat_saturatingSub (a b : UInt64) :
    (saturatingSub a b).toNat = a.toNat - b.toNat := by
  unfold saturatingSub
  split
  · rename_i hle
    exact UInt64.toNat_sub_of_le a b hle
  · rename_i hlt
    have hlt : a.toNat < b.toNat := Nat.lt_of_not_le fun hle => hlt (UInt64.le_iff_toNat_le.mpr hle)
    rw [Nat.sub_eq_zero_of_le (Nat.le_of_lt hlt)]
    rfl

theorem saturatingSub_le (a b : UInt64) : saturatingSub a b ≤ a := by
  rw [UInt64.le_iff_toNat_le, toNat_saturatingSub]
  exact Nat.sub_le _ _

/-! ## Measures of a queue -/

/-- What a queue is measured in. -/
inductive Measure where
  | messages
  | bytes
  deriving DecidableEq, Repr

/-- What one write of so many bytes adds to a queue. -/
def Measure.amount (bytes : UInt64) : Measure → UInt64
  | messages => 1
  | .bytes => bytes

/-- The measure of a dimension. -/
def Dimension.measure : Dimension → Measure
  | localMessages | globalMessages => .messages
  | localBytes | globalBytes => .bytes

namespace Load

/-- A load in one measure. -/
def get (l : Load) : Measure → UInt64
  | .messages => l.messages
  | .bytes => l.bytes

variable (l : Load) (bytes : UInt64) (m : Measure)

@[simp] theorem get_empty : ({} : Load).get m = 0 := by cases m <;> rfl

@[simp] theorem get_add : (l.add bytes).get m = l.get m + m.amount bytes := by cases m <;> rfl

@[simp] theorem get_sub : (l.sub bytes).get m = saturatingSub (l.get m) (m.amount bytes) := by
  cases m <;> rfl

/-- There is room for one more write: no counter of the load runs over. -/
def Fits : Prop := ∀ m, (l.get m).toNat + (m.amount bytes).toNat < UInt64.size

theorem get_sub_le : (l.sub bytes).get m ≤ l.get m := by
  rw [get_sub]
  exact saturatingSub_le _ _

variable {l bytes}

theorem Fits.toNat_get_add (h : l.Fits bytes) :
    ((l.add bytes).get m).toNat = (l.get m).toNat + (m.amount bytes).toNat := by
  rw [get_add, UInt64.toNat_add]
  exact Nat.mod_eq_of_lt (h m)

theorem Fits.le_get_add (h : l.Fits bytes) : l.get m ≤ (l.add bytes).get m := by
  rw [UInt64.le_iff_toNat_le, h.toNat_get_add m]
  exact Nat.le_add_right _ _

end Load

/-! ## Readiness and the order of figures -/

namespace Readiness

/-- A limit that allows a load allows every smaller one. -/
theorem allows_of_le {limit a b : UInt64} (h : allows limit b = true) (hle : a ≤ b) :
    allows limit a = true := by
  rw [allows_iff] at h ⊢
  rcases h with hzero | hlt
  · exact .inl hzero
  · exact .inr (UInt64.lt_of_le_of_lt hle hlt)

theorem verdict_eq_ready_iff {limits : Figures UInt64} {v : View} :
    verdict limits v = .ready ↔ v.lost = false ∧
      (v.closing = true ∨ ∀ d, allows (limits.get d) (v.figures.get d) = true) := by
  unfold verdict examine
  cases hl : v.lost with
  | true => simp
  | false =>
    cases hc : v.closing with
    | true => simp
    | false => simp [scan_verdict, Dimension.mem_all]

/-- A session stays ready while none of its figures grows. -/
theorem ready_of_le {limits : Figures UInt64} {v w : View} (h : verdict limits v = .ready)
    (hlost : w.lost = v.lost) (hclosing : w.closing = v.closing)
    (hle : ∀ d, w.figures.get d ≤ v.figures.get d) : verdict limits w = .ready := by
  rw [verdict_eq_ready_iff] at h ⊢
  obtain ⟨hl, hready⟩ := h
  refine ⟨hlost.trans hl, ?_⟩
  rcases hready with hc | hallows
  · exact .inl (hclosing.trans hc)
  · exact .inr fun d => allows_of_le (hallows d) (hle d)

end Readiness

namespace Ledger

variable {l : Ledger} {f : Load → Load} {session other : Nat} {bytes : UInt64}

/-! ## What a change of load does to the sessions -/

/-- The load that a session shows in a dimension: its own, or that of its service. -/
def loadIn (l : Ledger) (x : Session) : Dimension → Load
  | .localMessages | .localBytes => x.load
  | .globalMessages | .globalBytes => l.serviceLoad x.service

theorem get_figures (l : Ledger) (x : Session) (d : Dimension) :
    (l.figures x).get d = (l.loadIn x d).get d.measure := by
  cases d <;> rfl

theorem view_of_some {x : Session} (h : l.sessions[other]? = some x) :
    l.view other = ⟨x.lost, x.closing, l.figures x⟩ := by
  simp [view, h]

/-- Only the session itself gets another load. -/
theorem sessions_changeLoad :
    (l.changeLoad session f).sessions[other]? =
      l.sessions[other]?.map fun x =>
        if other = session then { x with load := f x.load } else x := by
  unfold changeLoad
  by_cases hother : other = session
  · subst hother
    cases hx : l.sessions[other]? with
    | none => simp [hx]
    | some x =>
      obtain ⟨hlt, -⟩ := List.getElem?_eq_some_iff.mp hx
      simp [hlt]
  · cases l.sessions[session]? with
    | none => simp [hother]
    | some x => simp [hother, Ne.symm hother]

/-- Only the service of the session gets another load. -/
theorem serviceLoad_changeLoad {x : Session} (hx : l.sessions[session]? = some x)
    (service : Nat) :
    (l.changeLoad session f).serviceLoad service =
      if service = x.service ∧ service < l.services.length then f (l.serviceLoad service)
      else l.serviceLoad service := by
  simp only [serviceLoad, changeLoad, hx, List.getElem?_modify]
  by_cases hservice : x.service = service
  · subst hservice
    by_cases hlt : x.service < l.services.length
    · simp [hlt]
    · simp [hlt]
  · simp [hservice, Ne.symm hservice]

/-- A session shows the same load as before in a dimension, or one of the two that change. -/
theorem loadIn_changeLoad {x y : Session} (hx : l.sessions[session]? = some x)
    (hy : l.sessions[other]? = some y) (d : Dimension) :
    let shown := if other = session then { y with load := f y.load } else y
    (l.changeLoad session f).loadIn shown d = l.loadIn y d ∨
      (l.loadIn y d = l.loadIn x d ∧
        (l.changeLoad session f).loadIn shown d = f (l.loadIn x d)) := by
  intro shown
  cases d with
  | localMessages | localBytes =>
    by_cases hother : other = session
    · subst hother
      obtain rfl : x = y := Option.some.inj (hx.symm.trans hy)
      right
      simp [shown, loadIn]
    · left
      simp [shown, loadIn, hother]
  | globalMessages | globalBytes =>
    have hservice : shown.service = y.service := by
      simp only [shown]
      split <;> rfl
    by_cases hsame : y.service = x.service ∧ y.service < l.services.length
    · right
      simp [loadIn, hservice, serviceLoad_changeLoad hx, hsame.1, hsame.1 ▸ hsame.2]
    · left
      simp only [loadIn, hservice, serviceLoad_changeLoad hx, if_neg hsame]

/-- A figure of some session stays as it was, or it shows one of the two loads that change. -/
theorem figure_changeLoad (d : Dimension) :
    ((l.changeLoad session f).view other).figures.get d = (l.view other).figures.get d ∨
      ∃ x, l.sessions[session]? = some x ∧
        (l.view other).figures.get d = (l.loadIn x d).get d.measure ∧
        ((l.changeLoad session f).view other).figures.get d =
          (f (l.loadIn x d)).get d.measure := by
  cases hx : l.sessions[session]? with
  | none => simp [changeLoad, hx]
  | some x =>
    cases hy : l.sessions[other]? with
    | none => simp [view, sessions_changeLoad, hy]
    | some y =>
      have hy' : (l.changeLoad session f).sessions[other]? = some _ :=
        sessions_changeLoad.trans (congrArg _ hy)
      rw [view_of_some hy, view_of_some hy', get_figures, get_figures]
      rcases loadIn_changeLoad (f := f) hx hy d with hsame | ⟨hbefore, hafter⟩
      · exact .inl (congrArg (·.get d.measure) hsame)
      · refine .inr ⟨x, rfl, ?_, ?_⟩
        · rw [hbefore]
        · exact congrArg (·.get d.measure) hafter

/-- A change of load makes no session lost or closing. -/
theorem flags_changeLoad :
    ((l.changeLoad session f).view other).lost = (l.view other).lost ∧
      ((l.changeLoad session f).view other).closing = (l.view other).closing := by
  unfold view
  rw [sessions_changeLoad]
  cases l.sessions[other]? with
  | none => exact ⟨rfl, rfl⟩
  | some y =>
    simp only [Option.map_some]
    split <;> exact ⟨rfl, rfl⟩

/-! ## Scheduling and completing -/

/-- There is room for a write on a session: neither its counters nor those of its service
run over. -/
def RoomFor (l : Ledger) (session : Nat) (bytes : UInt64) : Prop :=
  ∀ x d, l.sessions[session]? = some x → (l.loadIn x d).Fits bytes

variable {limits : Figures UInt64}

/-- Completing a write leaves every session ready that was. -/
theorem ready_complete (h : Readiness.verdict limits (l.view other) = .ready) :
    Readiness.verdict limits ((l.complete session bytes).view other) = .ready := by
  apply Readiness.ready_of_le h flags_changeLoad.1 flags_changeLoad.2
  intro d
  rcases figure_changeLoad (l := l) (f := (·.sub bytes)) d with hsame | ⟨x, -, hfrom, hto⟩
  · exact UInt64.le_of_eq hsame
  · rw [hfrom]
    exact UInt64.le_trans (UInt64.le_of_eq hto) (Load.get_sub_le _ _ _)

/-- A session that is ready after a write was scheduled was ready before, if there was room
for the write. -/
theorem ready_of_ready_schedule (hroom : l.RoomFor session bytes)
    (h : Readiness.verdict limits ((l.schedule session bytes).view other) = .ready) :
    Readiness.verdict limits (l.view other) = .ready := by
  apply Readiness.ready_of_le h flags_changeLoad.1.symm flags_changeLoad.2.symm
  intro d
  rcases figure_changeLoad (l := l) (f := (·.add bytes)) d with hsame | ⟨x, hx, hfrom, hto⟩
  · exact UInt64.le_of_eq hsame.symm
  · rw [hfrom]
    exact UInt64.le_trans ((hroom x d hx).le_get_add _) (UInt64.le_of_eq hto.symm)

/-- In every ledger, under every configuration: completing a write throttles no session that
was ready, and scheduling one that there is room for makes no throttled session ready,
neither the session itself nor another one. -/
theorem readiness_follows_load (entries : List Entry) (config : Config) (session other : Nat)
    (bytes : UInt64) :
    let l := ({} : Ledger).postAll entries
    (Readiness.verdict config.limits (l.view other) = .ready →
      Readiness.verdict config.limits ((l.complete session bytes).view other) = .ready) ∧
    (l.RoomFor session bytes →
      Readiness.verdict config.limits (l.view other) ≠ .ready →
      Readiness.verdict config.limits ((l.schedule session bytes).view other) ≠ .ready) := by
  intro l
  refine ⟨ready_complete, fun hroom hbefore hafter => hbefore ?_⟩
  exact ready_of_ready_schedule hroom hafter

/-- Two sessions of one service, with a write scheduled on the first. -/
def oneOfTwo : List Entry := [.openService, .openSession 0, .openSession 0, .schedule 0 10]

/-- Under a limit of one message on the whole service, both sessions stay throttled when more
is scheduled on the first; under a limit of two, both stay ready when it is completed. -/
theorem readiness_follows_load_oneOfTwo :
    let l := ({} : Ledger).postAll oneOfTwo
    let tight := Config.ofSettings { limits := ⟨0, 0, 1, 0⟩ }
    let wide := Config.ofSettings { limits := ⟨0, 0, 2, 0⟩ }
    Readiness.verdict tight.limits ((l.schedule 0 20).view 1) ≠ .ready ∧
      Readiness.verdict wide.limits ((l.complete 0 10).view 1) = .ready := by
  intro l tight wide
  have hroom : l.RoomFor 0 20 := by
    intro x d hx
    cases hx
    intro m
    cases d <;> cases m <;> decide
  exact ⟨(readiness_follows_load oneOfTwo tight 0 1 20).2 hroom (by decide),
    (readiness_follows_load oneOfTwo wide 0 1 10).1 (by decide)⟩

/-- Without room it is not so: ten bytes are scheduled on a session that may have five, and
so many more that its counter runs over to zero make it ready. -/
theorem ready_of_schedule_overflow :
    ¬ ∀ (entries : List Entry) (config : Config) (session other : Nat) (bytes : UInt64),
      let l := ({} : Ledger).postAll entries
      Readiness.verdict config.limits (l.view other) ≠ .ready →
        Readiness.verdict config.limits ((l.schedule session bytes).view other) ≠ .ready := by
  intro h
  have hthrottled := h [.openService, .openSession 0, .schedule 0 10]
    (Config.ofSettings { limits := ⟨0, 5, 0, 0⟩ }) 0 0 0xFFFF_FFFF_FFFF_FFF6 (by decide)
  exact hthrottled (by decide)

end Ledger

end Backpressure
