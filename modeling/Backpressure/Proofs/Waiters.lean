import Backpressure.Proofs.Moves
import Mathlib.Order.Bounds.Basic
set_option autoImplicit false

/-!
# The number of writers that wait

Which writers wait can be read off the past: those that started to wait and have not
left. The throttle keeps their number on its own, and a recorder is told to raise and to
lower a gauge. All of these agree at every moment of every run, however waits end, and
the gauge remembers the largest number of writers that ever waited at once.

A moment of a course is a suffix of its past, which stands latest first.
-/

namespace Backpressure.Pipeline

/-! ## Readings of the past -/

/-- The writers that wait, in the order in which they started to. -/
def inside : List Happening → List Nat
  | [] => []
  | .entered t _ :: earlier => inside earlier ++ [t]
  | .left t _ :: earlier => (inside earlier).erase t
  | _ :: earlier => inside earlier

/-- The number of held writers as it is kept: it goes up and down with each wait. -/
def stored : List Happening → Nat
  | [] => 0
  | .entered _ _ :: earlier => Wait.enter (stored earlier)
  | .left _ _ :: earlier => Wait.leave (stored earlier)
  | _ :: earlier => stored earlier

/-- The largest number of writers that waited at one moment. -/
def peak : List Happening → Nat
  | [] => 0
  | h :: earlier => max (inside (h :: earlier)).length (peak earlier)

/-- The gauge at a recorder that was told what happened. -/
def gauge (past : List Happening) : Option (Int × Int) :=
  Signal.gauge? (past.reverse.flatMap Happening.signals)

/-- A writer has started to wait. -/
def Touched (past : List Happening) : Prop := ∃ t b, .entered t b ∈ past

/-- A writer starts to wait only while it does not wait, and leaves only while it does. -/
def Paired : List Happening → Prop
  | [] => True
  | .entered t _ :: earlier => t ∉ inside earlier ∧ Paired earlier
  | .left t _ :: earlier => t ∈ inside earlier ∧ Paired earlier
  | _ :: earlier => Paired earlier

/-! ## The peak -/

theorem length_inside_le_peak (past : List Happening) : (inside past).length ≤ peak past := by
  cases past with
  | nil => exact Nat.le_refl 0
  | cons h earlier => exact Nat.le_max_left _ _

/-- The peak is reached at some moment and exceeded at none. -/
theorem isGreatest_peak (past : List Happening) :
    IsGreatest {n | ∃ moment, moment <:+ past ∧ (inside moment).length = n} (peak past) := by
  induction past with
  | nil =>
    refine ⟨⟨[], List.suffix_rfl, rfl⟩, ?_⟩
    rintro n ⟨moment, hm, rfl⟩
    rw [List.suffix_nil.mp hm]
    exact Nat.le_refl 0
  | cons h earlier ih =>
    obtain ⟨⟨moment, hm, hpeak⟩, hle⟩ := ih
    refine ⟨?_, ?_⟩
    · rcases Nat.le_total (inside (h :: earlier)).length (peak earlier) with hmax | hmax
      · exact ⟨moment, hm.trans (List.suffix_cons _ _), hpeak.trans (Nat.max_eq_right hmax).symm⟩
      · exact ⟨_, List.suffix_rfl, (Nat.max_eq_left hmax).symm⟩
    · rintro n ⟨moment, hm, rfl⟩
      rcases List.suffix_cons_iff.mp hm with rfl | hm
      · exact Nat.le_max_left _ _
      · exact (hle ⟨moment, hm, rfl⟩).trans (Nat.le_max_right _ _)

/-! ## Moments at which waits are paired -/

namespace Paired

variable {past moment : List Happening}

theorem of_cons {h : Happening} (hp : Paired (h :: past)) : Paired past := by
  cases h with
  | entered t b | left t e => exact hp.2
  | _ => exact hp

theorem of_suffix (hp : Paired past) (hm : moment <:+ past) : Paired moment := by
  induction past with
  | nil => rwa [List.suffix_nil.mp hm]
  | cons h earlier ih =>
    rcases List.suffix_cons_iff.mp hm with rfl | hm
    · exact hp
    · exact ih hp.of_cons hm

theorem nodup_inside (hp : Paired past) : (inside past).Nodup := by
  induction past with
  | nil => exact List.nodup_nil
  | cons h earlier ih =>
    cases h with
    | entered t b => exact List.nodup_append.mpr ⟨ih hp.2, List.nodup_singleton t, by
        rintro x hx y hy rfl
        exact hp.1 (List.mem_singleton.mp hy ▸ hx)⟩
    | left t e => exact (ih hp.2).erase t
    | _ => exact ih hp

/-- The number that is kept is that of the writers that wait. -/
theorem stored_eq (hp : Paired past) : stored past = (inside past).length := by
  induction past with
  | nil => rfl
  | cons h earlier ih =>
    cases h with
    | entered t b =>
      rw [stored, ih hp.2, inside, List.length_append, List.length_singleton]
      rfl
    | left t e =>
      rw [stored, ih hp.2, inside, List.length_erase_of_mem hp.1]
      rfl
    | _ => exact ih hp

/-- No writer leaves while none is counted. -/
theorem stored_pos {t : Nat} {e : Option WaitEnd} (hp : Paired (.left t e :: past)) :
    0 < stored past := by
  rw [stored_eq hp.2]
  exact List.length_pos_of_mem hp.1

end Paired

/-! ## The gauge -/

theorem gauge_cons (h : Happening) (past : List Happening) :
    gauge (h :: past) =
      (h.signals.filterMap Signal.gaugeStep).foldl Signal.moveGauge (gauge past) := by
  simp only [gauge, Signal.gauge?, List.reverse_cons, List.flatMap_append, List.flatMap_cons,
    List.flatMap_nil, List.append_nil, List.filterMap_append, List.foldl_append]

/-- Counting something does not move the gauge. -/
theorem gauge_recorded (r : Record) (past : List Happening) :
    gauge (.recorded r :: past) = gauge past := by
  rw [gauge_cons]
  rcases r with _ | (_ | _) | _ | _ | _ | _ <;> rfl

/-- What neither starts nor ends a wait leaves the readings as they are. -/
theorem peak_of_inside_eq {h : Happening} {past : List Happening}
    (hi : inside (h :: past) = inside past) : peak (h :: past) = peak past := by
  rw [peak, hi]
  exact Nat.max_eq_right (length_inside_le_peak past)

/-- Once a writer has waited, the gauge is the number of writers that wait, with the largest
one that it ever was; until then there is no gauge. -/
structure Gauged (past : List Happening) : Prop where
  shown : Touched past → gauge past = some (((inside past).length : Int), (peak past : Int))
  absent : ¬ Touched past → gauge past = none ∧ inside past = [] ∧ peak past = 0

namespace Gauged

variable {past : List Happening}

theorem nil : Gauged [] := by
  refine ⟨?_, fun _ => ⟨rfl, rfl, rfl⟩⟩
  rintro ⟨t, b, hm⟩
  exact absurd hm List.not_mem_nil

/-- The first writer that waits makes the gauge appear, every other one raises it. -/
theorem entered (h : Gauged past) (t : Nat) (b : Option Duration) :
    Gauged (.entered t b :: past) := by
  refine ⟨fun _ => ?_, fun hn => absurd ⟨t, b, List.mem_cons_self⟩ hn⟩
  have hstep : gauge (.entered t b :: past) = Signal.moveGauge (gauge past) 1 := gauge_cons _ _
  rw [hstep, peak, inside, List.length_append, List.length_singleton]
  by_cases ht : Touched past
  · rw [h.shown ht]
    simp only [Signal.moveGauge, Option.some.injEq, Prod.mk.injEq]
    omega
  · obtain ⟨hg, hi, hpeak⟩ := h.absent ht
    rw [hg, hi, hpeak]
    rfl

/-- A writer that leaves has waited, so the gauge is there and above zero. -/
theorem left (h : Gauged past) {t : Nat} (ht : t ∈ inside past) (e : Option WaitEnd) :
    Gauged (.left t e :: past) := by
  have htouched : Touched past := by
    by_contra hn
    obtain ⟨-, hnil, -⟩ := h.absent hn
    rw [hnil] at ht
    exact List.not_mem_nil ht
  refine ⟨fun _ => ?_, fun hn => ?_⟩
  · have hstep : gauge (.left t e :: past) = Signal.moveGauge (gauge past) (-1) :=
      gauge_cons _ _
    have hpos := List.length_pos_of_mem ht
    have hle := length_inside_le_peak past
    rw [hstep, h.shown htouched, peak, inside, List.length_erase_of_mem ht]
    simp only [Signal.moveGauge, Option.some.injEq, Prod.mk.injEq]
    omega
  · obtain ⟨u, b, hm⟩ := htouched
    exact absurd ⟨u, b, List.mem_cons_of_mem _ hm⟩ hn

theorem of_eq (h : Gauged past) {x : Happening} (hg : gauge (x :: past) = gauge past)
    (hi : inside (x :: past) = inside past) (hx : ∀ t b, .entered t b ≠ x) :
    Gauged (x :: past) := by
  have htouched : Touched (x :: past) ↔ Touched past := by
    constructor
    · rintro ⟨t, b, hm⟩
      exact ⟨t, b, (List.mem_cons.mp hm).resolve_left (hx t b)⟩
    · rintro ⟨t, b, hm⟩
      exact ⟨t, b, List.mem_cons_of_mem _ hm⟩
  constructor
  · rw [htouched, hg, hi, peak_of_inside_eq hi]
    exact h.shown
  · rw [htouched, hg, hi, peak_of_inside_eq hi]
    exact h.absent

end Gauged

theorem Paired.gauged {past : List Happening} (hp : Paired past) : Gauged past := by
  induction past with
  | nil => exact .nil
  | cons h earlier ih =>
    have hg := ih hp.of_cons
    cases h with
    | entered t b => exact hg.entered t b
    | left t e => exact hg.left hp.1 e
    | recorded r => exact hg.of_eq (gauge_recorded r earlier) rfl fun _ _ => nofun
    | _ => exact hg.of_eq (gauge_cons _ _) rfl fun _ _ => nofun

namespace Course

/-! ## Waits of a run -/

variable {c c' : Course} {w : Waiter} {session : Nat} {request : Request} {now : Instant}

@[simp] theorem inside_warnTrail (t : Nat) (past : List Happening) :
    inside (c.warnTrail t session now ++ past) = inside past :=
  warnTrail_append c t session now (fun _ _ _ _ => rfl) (fun _ _ => rfl) (fun _ _ => rfl) past

@[simp] theorem stored_warnTrail (t : Nat) (past : List Happening) :
    stored (c.warnTrail t session now ++ past) = stored past :=
  warnTrail_append c t session now (fun _ _ _ _ => rfl) (fun _ _ => rfl) (fun _ _ => rfl) past

@[simp] theorem paired_warnTrail (t : Nat) (past : List Happening) :
    Paired (c.warnTrail t session now ++ past) = Paired past :=
  warnTrail_append c t session now (fun _ _ _ _ => rfl) (fun _ _ => rfl) (fun _ _ => rfl) past

/-- The past tells which writers wait, and the throttle keeps what it tells. -/
structure Told (c : Course) : Prop where
  waits : inside c.past = c.world.throttle.waiting.map Waiter.ticket
  keeps : stored c.past = c.world.throttle.held
  paired : Paired c.past

namespace Told

theorem start (s : Settings) : Told (Course.start s) := ⟨rfl, rfl, trivial⟩

theorem written (h : Told c) (ho : Orderly c) (hw : Written c session request now c') :
    Told c' := by
  have hfresh : c.world.arrivals ∉ inside c.past := by
    rw [h.waits]
    intro hm
    obtain ⟨x, hx, heq⟩ := List.mem_map.mp hm
    exact absurd (ho.given x hx) (by omega)
  cases hw with
  | untouched hp | ready hp hv | lost hp hv | passes hp hv | rejected hp hv =>
    exact ⟨by simp [inside, h.waits], by simp [stored, h.keeps], by simp [Paired, h.paired]⟩
  | waits hp hv | warnsAndWaits hp hv =>
    refine ⟨?_, ?_, ?_⟩
    · simp [inside, h.waits, newWaiter]
    · simp [stored, h.keeps, Wait.enter]
    · simp [Paired, inside, h.paired, hfresh, newWaiter]

theorem passed (h : Told c) (ho : Orderly c) (hw : w ∈ c.world.throttle.waiting)
    (hp : Passed c w now c') : Told c' := by
  have hmem : w.ticket ∈ inside c.past := h.waits ▸ List.mem_map_of_mem hw
  have herase : (inside c.past).erase w.ticket =
      (c.world.throttle.waiting.filter (·.ticket != w.ticket)).map Waiter.ticket := by
    rw [h.waits, ho.nodup_tickets.erase_eq_filter, List.filter_map]
    rfl
  cases hp with
  | stays hk => exact ⟨h.waits, h.keeps, h.paired⟩
  | goesOn hv | givesUp hv hd hn | breaks hv =>
    refine ⟨?_, ?_, hmem, h.paired⟩
    · simpa [inside, releaseTrail] using herase
    · simp [stored, releaseTrail, h.keeps, Wait.leave]

theorem move (ho : Orderly c) (h : Told c) (hm : Move c c') : Told c' := by
  cases hm with
  | write hw => exact h.written ho hw
  | pass hw hp => exact h.passed ho hw hp
  | surround _ _ _ _ | wakeup _ | call _ | answer _ => exact ⟨h.waits, h.keeps, h.paired⟩

theorem run (s : Settings) (actions : List Action) : Told ((Course.start s).run actions) :=
  invariant_run (P := Told) Told.move (.start s) (.start s) actions

end Told

/-- In every course of a run the writers that wait are those that the past tells, and the
throttle keeps their number and shows it beside its counters. At every moment on the way
this was so, the number was never lowered from zero, and the gauge was this number with
the largest one up to then, once it was touched. -/
theorem held_eq_inside (s : Settings) (actions : List Action) :
    let c := (Course.start s).run actions
    c.world.throttle.held = (inside c.past).length ∧
      c.world.throttle.waitingWriters = (inside c.past).length ∧
      c.world.throttle.metrics.currentWaiters = (inside c.past).length ∧
      c.world.throttle.waiting.map Waiter.ticket = inside c.past ∧
      c.world.throttle.held = stored c.past ∧
      Signal.gauge? c.signals = gauge c.past ∧
      ∀ moment, moment <:+ c.past →
        (inside moment).Nodup ∧ stored moment = (inside moment).length ∧
          (∀ t e earlier, moment = .left t e :: earlier → 0 < stored earlier) ∧
          (Touched moment →
            gauge moment = some (((inside moment).length : Int), (peak moment : Int))) ∧
          (¬ Touched moment → gauge moment = none) ∧
          IsGreatest {n | ∃ earlier, earlier <:+ moment ∧ (inside earlier).length = n}
            (peak moment) := by
  intro c
  have htold : Told c := Told.run s actions
  have hheld : c.world.throttle.held = (inside c.past).length := by
    rw [← htold.keeps, htold.paired.stored_eq]
  refine ⟨hheld, hheld, hheld, htold.waits.symm, htold.keeps.symm, rfl, ?_⟩
  intro moment hm
  have hpaired : Paired moment := htold.paired.of_suffix hm
  refine ⟨hpaired.nodup_inside, hpaired.stored_eq, ?_, hpaired.gauged.shown,
    fun ht => (hpaired.gauged.absent ht).1, isGreatest_peak moment⟩
  rintro t e earlier rfl
  exact hpaired.stored_pos

/-- Of two writers that wait one is broken off, since its session is lost. -/
theorem held_eq_inside_broken :
    let c := (Course.start { policy := .block, limits := ⟨1, 0, 0, 0⟩ }).run
      [.post .openService, .post (.openSession 0), .post (.openSession 0),
       .post (.schedule 0 10), .post (.schedule 1 10), .write 0 [7] 5, .write 1 [8] 6,
       .post (.lose 0), .wake { now := 9 }]
    (inside c.past).length = 1 ∧ peak c.past = 2 ∧
      gauge c.past = some (((inside c.past).length : Int), (peak c.past : Int)) := by
  intro c
  have htouched : Touched c.past := ⟨0, none, by decide⟩
  have hmoment := (held_eq_inside _ _).2.2.2.2.2.2 c.past List.suffix_rfl
  exact ⟨by decide, by decide, hmoment.2.2.2.1 htouched⟩

end Course

end Backpressure.Pipeline
