import Backpressure.Proofs.Accounts
import Backpressure.Proofs.Scenes
import Backpressure.Proofs.Waiters
set_option autoImplicit false

/-!
# What a recorder was told

The throttle keeps its own counters and tells a recorder of everything that it counts, by
statements that stand side by side in the program but know nothing of each other. So the same
activity is recorded twice. Here both recordings are read off the past, where they are the same
number: how often a counter was told is its `tally`, and so is the number of sampled waits. A
name at the recorder is absent until it is told for the first time.

The recorder adds up without end while the counters are machine words, so it takes at least
`2 ^ 64` actions to tell them apart.
-/

namespace Backpressure

/-! ## Names at a recorder -/

/-- Counters at a recorder have names of their own. -/
theorem Meter.name_injective : Function.Injective Meter.name := by
  intro a b h
  cases a <;> cases b <;> first | rfl | simp [name] at h

/-- A figure of a recorder by its name. -/
def Export.counter? (e : Export) (name : String) : Option Nat :=
  (e.counters.find? (·.1.name == name)).map Prod.snd

/-- Of the figures that some counters have, the one with a name is that of its counter. -/
theorem find?_filterMap_name (f : Meter → Option Nat) {m : Meter} {meters : List Meter}
    (hm : m ∈ meters) :
    ((meters.filterMap fun k => (f k).map (k, ·)).find? (·.1.name == m.name)).map Prod.snd =
      f m := by
  have hnone : f m = none → ∀ ks : List Meter,
      (ks.filterMap fun k => (f k).map (k, ·)).find? (·.1.name == m.name) = none := by
    intro hf ks
    rw [List.find?_eq_none]
    rintro ⟨k, n⟩ hk heq
    obtain ⟨j, -, hj⟩ := List.mem_filterMap.mp hk
    obtain ⟨i, hi, hpair⟩ := Option.map_eq_some_iff.mp hj
    cases hpair
    have hkm : k = m := Meter.name_injective (beq_iff_eq.mp heq)
    rw [hkm, hf] at hi
    cases hi
  induction meters with
  | nil => exact absurd hm List.not_mem_nil
  | cons k rest ih =>
    cases hf : f k with
    | none =>
      rw [List.filterMap_cons_none (by rw [hf]; rfl)]
      rcases List.mem_cons.mp hm with rfl | hrest
      · rw [hnone hf, hf]
        rfl
      · exact ih hrest
    | some n =>
      rw [List.filterMap_cons_some (by rw [hf]; rfl), List.find?_cons]
      by_cases hk : k = m
      · rw [hk, beq_self_eq_true, ← hk, hf]
        rfl
      · have hname : (k.name == m.name) = false := by
          rw [beq_eq_false_iff_ne]
          exact fun heq => hk (Meter.name_injective heq)
        have hrest : m ∈ rest := (List.mem_cons.mp hm).resolve_left fun heq => hk heq.symm
        rw [hname]
        exact ih hrest

theorem Meter.mem_all (m : Meter) : m ∈ all := by cases m <;> simp [all]

theorem Export.counter?_ofSignals (signals : List Signal) (m : Meter) :
    (ofSignals signals).counter? m.name = Signal.counter? signals m :=
  find?_filterMap_name (Signal.counter? signals) m.mem_all

theorem Signal.counter?_eq (signals : List Signal) (m : Meter) :
    counter? signals m =
      if signals.count (.count m) = 0 then none else some (signals.count (.count m)) := by
  unfold counter?
  cases signals.count (.count m) <;> rfl

/-- A record tells a recorder of its own counter once and of no other one. -/
theorem Record.count_signals (r : Record) (m : Meter) :
    r.signals.count (.count m) = if r.meter = m then 1 else 0 := by
  rcases r with _ | (_ | _) | _ | _ | _ | _ <;> cases m <;> rfl

namespace Pipeline

/-! ## Signals of the past -/

/-- The signals of what happened, in order. -/
def toldSignals (past : List Happening) : List Signal := past.reverse.flatMap Happening.signals

theorem toldSignals_cons (h : Happening) (past : List Happening) :
    toldSignals (h :: past) = toldSignals past ++ h.signals := by
  simp only [toldSignals, List.reverse_cons, List.flatMap_append, List.flatMap_cons,
    List.flatMap_nil, List.append_nil]

/-- What is added up over signals and goes up with the records of one counter alone is how
often this counter was moved. -/
theorem sum_toldSignals {f : List Signal → Nat} {m : Meter} (hnil : f [] = 0)
    (happend : ∀ xs ys, f (xs ++ ys) = f xs + f ys)
    (hrecord : ∀ r : Record, f r.signals = if r.meter = m then 1 else 0)
    (hraise : f [.raise] = 0) (hlower : f [.lower] = 0) (past : List Happening) :
    f (toldSignals past) = tally m past := by
  induction past with
  | nil => exact hnil
  | cons h earlier ih =>
    rw [toldSignals_cons, happend, ih]
    cases h with
    | recorded r => exact congrArg (tally m earlier + ·) (hrecord r)
    | entered t b => exact congrArg (tally m earlier + ·) hraise
    | left t e => exact congrArg (tally m earlier + ·) hlower
    | _ => exact congrArg (tally m earlier + ·) hnil

/-- A recorder is told of a counter as often as the throttle moves it. -/
theorem count_toldSignals (m : Meter) (past : List Happening) :
    (toldSignals past).count (.count m) = tally m past := by
  refine sum_toldSignals List.count_nil (fun _ _ => List.count_append)
    (fun r => r.count_signals m) ?_ ?_ past
  · exact List.count_eq_zero.mpr (by simp)
  · exact List.count_eq_zero.mpr (by simp)

/-- A recorder has a sample of each wait that was counted. -/
theorem length_samples_toldSignals (past : List Happening) :
    (Signal.samples (toldSignals past)).length = tally .blockedWrites past := by
  refine sum_toldSignals (f := fun signals => (Signal.samples signals).length) rfl ?_ ?_ rfl rfl
    past
  · intro xs ys
    rw [Signal.samples, List.filterMap_append, List.length_append]
    rfl
  · intro r
    rcases r with _ | (_ | _) | _ | _ | _ | _ <;> rfl

namespace Course

/-! ## How often a counter is moved -/

variable {c : Course}

theorem wakes_le_length (c : Course) (as : List Action) : c.wakes as ≤ as.length := by
  induction as generalizing c with
  | nil => exact Nat.le_refl 0
  | cons a as ih =>
    have hrest := ih (c.step a)
    rw [wakes, List.length_cons]
    split <;> omega

/-- Only throttled writes are counted, apart from wakes, and each of them once. -/
theorem Balanced.tally_le (h : Balanced c) {m : Meter} (hm : m ≠ .wakeups) :
    tally m c.past ≤ (throttledUnder (fun _ => true) c.past).length := by
  obtain ⟨hthrottled, hwarned, -, -, hwaited, hbalance⟩ := h
  have hwarns := (throttledUnder_sublist Policy.warns c.past).length_le
  cases m with
  | wakeups => exact absurd rfl hm
  | throttledWrites | warningsLogged | warningsSuppressed | blockedWrites | rejectedWrites
  | timedOutWrites => omega

/-- No counter is moved more often than there were actions. -/
theorem tally_le_length (s : Settings) (actions : List Action) (m : Meter) :
    tally m ((start s).run actions).past ≤ actions.length := by
  by_cases hm : m = .wakeups
  · have hwakeups : tally .wakeups ((start s).run actions).past = 0 + (start s).wakes actions :=
      tally_wakeups_run (.start s) actions
    rw [hm, hwakeups, Nat.zero_add]
    exact wakes_le_length _ _
  · have hbalanced : Balanced ((start s).run actions) := Balanced.run s actions
    have hdistinct : Distinct ((start s).run actions) := Distinct.run s actions
    have harrivals : ((start s).run actions).world.arrivals = 0 + actions.countP Action.isWrite :=
      arrivals_run actions
    have hwrites : actions.countP Action.isWrite ≤ actions.length := List.countP_le_length
    calc tally m ((start s).run actions).past
        ≤ (throttledUnder (fun _ => true) ((start s).run actions).past).length :=
          hbalanced.tally_le hm
      _ ≤ (List.range ((start s).run actions).world.arrivals).reverse.length :=
          hdistinct.throttled.length_le
      _ ≤ actions.length := by
        rw [List.length_reverse, List.length_range, harrivals]
        omega

/-! ## Figures of a course -/

/-- A recorder shows how often a counter was moved, once it was. -/
theorem counter?_signals (c : Course) (m : Meter) :
    (Export.ofSignals c.signals).counter? m.name =
      if tally m c.past = 0 then none else some (tally m c.past) := by
  have hcount : c.signals.count (.count m) = tally m c.past := count_toldSignals m c.past
  rw [Export.counter?_ofSignals, Signal.counter?_eq, hcount]

/-- While a counter has not wrapped, a recorder shows its field, if it is not zero. -/
theorem Counted.counter?_eq (h : Counted c) {m : Meter} (hm : tally m c.past < UInt64.size) :
    (Export.ofSignals c.signals).counter? m.name =
      if m.ofCounters c.world.throttle.counters = 0 then none
      else some (m.ofCounters c.world.throttle.counters).toNat := by
  have hfield : (m.ofCounters c.world.throttle.counters).toNat = tally m c.past := h.toNat_eq hm
  have hzero : m.ofCounters c.world.throttle.counters = 0 ↔ tally m c.past = 0 := by
    rw [← hfield, ← UInt64.toNat_inj]
    rfl
  rw [counter?_signals, hfield]
  exact if_congr hzero.symm rfl rfl

/-- There is no gauge until a writer starts to wait. -/
theorem Told.gauge_eq_none_iff (h : Told c) : gauge c.past = none ↔ ¬ Touched c.past := by
  constructor
  · intro hnone htouched
    rw [h.paired.gauged.shown htouched] at hnone
    cases hnone
  · intro hn
    exact (h.paired.gauged.absent hn).1

/-- The gauge is the number of held writers. -/
theorem Told.current_eq_held (h : Told c) {current highest : Int}
    (hsome : gauge c.past = some (current, highest)) :
    current = (c.world.throttle.held : Int) := by
  have htouched : Touched c.past := by
    by_contra hn
    rw [h.gauge_eq_none_iff.mpr hn] at hsome
    cases hsome
  rw [h.paired.gauged.shown htouched] at hsome
  cases hsome
  rw [← h.keeps, h.paired.stored_eq]

/-! ## Runs -/

/-- In every course of a run the recorder shows what the throttle shows. For each counter the
field of the metrics is the word of what the recorder has under the name of the counter; the
name is absent as long as nothing was counted, so exactly while the field is zero, unless more
was counted than a word can hold, which takes as many actions. There are as many samples of
waits as writes that have waited. The gauge is absent exactly as long as no writer started to
wait; after that it is the number of writers that are held. -/
theorem exports_agree_with_metrics (s : Settings) (actions : List Action) :
    let c := (start s).run actions
    let metrics := c.world.throttle.metrics
    let e := Export.ofSignals c.signals
    (∀ m : Meter,
        let field := m.ofCounters metrics.counters
        let told := (e.counter? m.name).getD 0
        field = UInt64.ofNat told ∧ e.counter? m.name ≠ some 0 ∧ told ≤ actions.length ∧
          (told < UInt64.size →
            e.counter? m.name = if field = 0 then none else some field.toNat)) ∧
      metrics.counters.blockedWrites = UInt64.ofNat e.samples.length ∧
      e.samples.length ≤ actions.length ∧
      (e.samples.length < UInt64.size →
        e.samples.length = metrics.counters.blockedWrites.toNat) ∧
      (e.gauge = none ↔ ∀ t b, .entered t b ∉ c.past) ∧
      ∀ current highest, e.gauge = some (current, highest) →
        current = (metrics.currentWaiters : Int) := by
  intro c metrics e
  have hcounted : Counted c := Counted.run s actions
  have htold : Told c := Told.run s actions
  have hsamples : e.samples.length = tally .blockedWrites c.past :=
    length_samples_toldSignals c.past
  refine ⟨?_, ?_, ?_, ?_, ?_, ?_⟩
  · intro m field told
    have hcounter : e.counter? m.name =
        if tally m c.past = 0 then none else some (tally m c.past) := counter?_signals c m
    have htally : told = tally m c.past := by
      change (e.counter? m.name).getD 0 = tally m c.past
      rw [hcounter]
      split
      · exact (‹tally m c.past = 0›).symm
      · rfl
    rw [htally]
    refine ⟨hcounted m, ?_, tally_le_length s actions m, hcounted.counter?_eq⟩
    rw [hcounter]
    split
    · nofun
    · exact fun hzero => ‹¬ tally m c.past = 0› (Option.some.inj hzero)
  · rw [hsamples]
    exact hcounted .blockedWrites
  · rw [hsamples]
    exact tally_le_length s actions .blockedWrites
  · rw [hsamples]
    exact fun hfew => (hcounted.toNat_eq (m := .blockedWrites) hfew).symm
  · refine htold.gauge_eq_none_iff.trans ⟨fun hn t b hm => hn ⟨t, b, hm⟩, ?_⟩
    rintro hn ⟨t, b, hm⟩
    exact hn t b hm
  · intro current highest hsome
    exact htold.current_eq_held hsome

/-- Three writers are held and one of them is warned about; one wait times out, one is broken
off by the wake after its session was lost, and one goes on waiting. -/
def threeWaits : List Action :=
  [.post .openService, .post (.openSession 0), .post (.openSession 0), .post (.openSession 0),
   .post (.schedule 0 10), .post (.schedule 1 10), .post (.schedule 2 10), .write 0 [1] 5,
   .write 1 [2] 6, .write 2 [3] 8, .expire 0 10, .post (.lose 1), .wake { now := 11 }]

/-- The course of the three writers. -/
def threeWaitsEnd : Course :=
  (start
    { policy := .logAndBlock, limits := ⟨1, 0, 0, 0⟩, logInterval := .ofNanos 10
      blockTimeout := some (.ofNanos 5) }).run threeWaits

/-- Too few actions for a counter to wrap: every name has its field, and the gauge is one. -/
theorem exports_agree_with_metrics_threeWaits :
    let metrics := threeWaitsEnd.world.throttle.metrics
    let e := Export.ofSignals threeWaitsEnd.signals
    (∀ m : Meter, e.counter? m.name =
        if m.ofCounters metrics.counters = 0 then none
        else some (m.ofCounters metrics.counters).toNat) ∧
      e.samples.length = metrics.counters.blockedWrites.toNat ∧
      e.gauge = some (1, 3) ∧ metrics.currentWaiters = 1 := by
  intro metrics e
  have hfew : threeWaits.length < UInt64.size := by decide
  obtain ⟨hcounters, -, hlength, hsamples, -, hcurrent⟩ :=
    exports_agree_with_metrics
      { policy := .logAndBlock, limits := ⟨1, 0, 0, 0⟩, logInterval := .ofNanos 10
        blockTimeout := some (.ofNanos 5) } threeWaits
  have hgauge : e.gauge = some (1, 3) := by decide +kernel
  refine ⟨?_, hsamples (Nat.lt_of_le_of_lt hlength hfew), hgauge, ?_⟩
  · intro m
    obtain ⟨-, -, htold, hexact⟩ := hcounters m
    exact hexact (Nat.lt_of_le_of_lt htold hfew)
  · exact (Int.ofNat.inj (hcurrent 1 3 hgauge)).symm

end Course

end Pipeline

end Backpressure
