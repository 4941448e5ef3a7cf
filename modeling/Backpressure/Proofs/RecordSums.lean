import Backpressure.Proofs.Exports
import Backpressure.Proofs.WakeOrder
import Mathlib.Algebra.GroupWithZero.Nat
import Mathlib.Algebra.Order.BigOperators.Group.List
import Mathlib.Algebra.Order.Group.Nat
set_option autoImplicit false

/-!
# What records add up to

The counters of a throttle are sums over its records, so their order does not matter. Seven of
them say how many records of a kind there were; the eighth adds up the waits, each of them cut
to whole milliseconds and then to a word before it is added.

Lengths are exact numbers of nanoseconds here, a million of which make a millisecond. A wait
loses less than a millisecond when it is cut. So the sum falls short of the exact total by less
than a millisecond for each wait, and never goes beyond it, as long as the exact total fits
into a word: then no wait is cut to a word, and the sum does not wrap.
-/

namespace Backpressure

/-! ## Durations cut to milliseconds -/

namespace Duration

/-- The exact length of several durations together, in nanoseconds. -/
def total (ds : List Duration) : Nat := (ds.map nanos).sum

@[simp] theorem total_nil : total [] = 0 := rfl

@[simp] theorem total_cons (d : Duration) (ds : List Duration) :
    total (d :: ds) = d.nanos + total ds := List.sum_cons

theorem nanos_le_total {d : Duration} {ds : List Duration} (h : d ∈ ds) : d.nanos ≤ total ds :=
  List.le_sum_of_mem (List.mem_map_of_mem h)

theorem millis_mul_le (d : Duration) : 1_000_000 * d.millis ≤ d.nanos := Nat.mul_div_le _ _

theorem nanos_lt (d : Duration) : d.nanos < 1_000_000 * (d.millis + 1) :=
  Nat.lt_mul_div_succ _ (by decide)

/-- Durations cut to milliseconds add up to no more than their exact total. -/
theorem sum_millis_le (ds : List Duration) : 1_000_000 * (ds.map millis).sum ≤ total ds := by
  induction ds with
  | nil => exact Nat.le_refl 0
  | cons d ds ih =>
    have hd := d.millis_mul_le
    rw [List.map_cons, List.sum_cons, total_cons]
    omega

/-- They fall short of it by less than a millisecond for each of them, which in whole
nanoseconds is at least one less for each. -/
theorem total_add_length_le (ds : List Duration) :
    total ds + ds.length ≤ 1_000_000 * ((ds.map millis).sum + ds.length) := by
  induction ds with
  | nil => exact Nat.le_refl 0
  | cons d ds ih =>
    have hd := d.nanos_lt
    rw [List.map_cons, List.sum_cons, total_cons, List.length_cons]
    omega

/-- The milliseconds of a duration, as many of them as a word can hold. -/
def cutMillis (d : Duration) : Nat := min d.millis (UInt64.size - 1)

/-- A duration among others whose total fits into a word is not cut. -/
theorem cutMillis_eq {d : Duration} {ds : List Duration}
    (hfits : total ds < 1_000_000 * UInt64.size) (h : d ∈ ds) : d.cutMillis = d.millis := by
  have hle := nanos_le_total h
  have hmillis := d.millis_mul_le
  apply Nat.min_eq_left
  omega

end Duration

/-! ## Waits and signals of records -/

/-- The wait that a record adds up. -/
def Record.waited? : Record → Option Duration
  | blocked waited => some waited
  | throttled | warning _ | rejected | timedOut | wakeup => none

/-- The waits that several records add up, in order. -/
def Record.waits (rs : List Record) : List Duration := rs.filterMap waited?

/-- What a recorder is told of several records, in order. -/
def Record.told (rs : List Record) : List Signal := rs.flatMap signals

namespace Record

/-- A recorder is told of a counter once for each of its records. -/
theorem count_told (rs : List Record) (m : Meter) :
    (told rs).count (.count m) = rs.countP (·.meter = m) := by
  induction rs with
  | nil => rfl
  | cons r rs ih =>
    have htold : told (r :: rs) = r.signals ++ told rs := List.flatMap_cons
    rw [htold, List.count_append, ih, count_signals, List.countP_cons, Nat.add_comm]
    simp only [decide_eq_true_eq]

/-- There is one wait for each record that counts a blocked write. -/
theorem length_waits (rs : List Record) :
    (waits rs).length = rs.countP (·.meter = .blockedWrites) := by
  induction rs with
  | nil => rfl
  | cons r rs ih =>
    rw [List.countP_cons, ← ih]
    rcases r with _ | (_ | _) | _ | _ | _ | _ <;> rfl

end Record

/-- A recorder shows the same counters for the same signals in another order. -/
theorem Export.counters_ofSignals_perm {xs ys : List Signal} (h : xs.Perm ys) :
    (ofSignals xs).counters = (ofSignals ys).counters := by
  simp only [ofSignals, Signal.counter?_eq, h.count_eq]

/-! ## Counters after records -/

/-- A counter goes up by the number of its records. -/
theorem Meter.ofCounters_recordAll (m : Meter) (c : Counters) (rs : List Record) :
    m.ofCounters (c.recordAll rs) = m.ofCounters c + UInt64.ofNat (rs.countP (·.meter = m)) := by
  induction rs generalizing c with
  | nil => exact (UInt64.add_zero _).symm
  | cons r rs ih =>
    rw [Counters.recordAll_cons, ih, ofCounters_record, List.countP_cons, UInt64.add_assoc,
      ← UInt64.ofNat_add, Nat.add_comm]
    simp only [decide_eq_true_eq]

/-- What a counter has counted from nothing is the number of its records, as a word. -/
theorem Meter.toNat_ofCounters_recordAll (m : Meter) (rs : List Record) :
    (m.ofCounters (({} : Counters).recordAll rs)).toNat =
      rs.countP (·.meter = m) % UInt64.size := by
  have hzero : m.ofCounters {} = 0 := by cases m <;> rfl
  rw [ofCounters_recordAll, hzero, UInt64.zero_add]
  exact UInt64.toNat_ofNat'

namespace Counters

theorem blockTimeMs_record (c : Counters) (r : Record) :
    (c.record r).blockTimeMs =
      c.blockTimeMs + UInt64.ofNat (r.waited?.elim 0 Duration.cutMillis) := by
  rcases r with _ | (_ | _) | _ | _ | _ | _
  case blocked waited => rfl
  all_goals exact (UInt64.add_zero _).symm

/-- The sum of waits goes up by each of them, cut to milliseconds and to a word. -/
theorem blockTimeMs_recordAll (c : Counters) (rs : List Record) :
    (c.recordAll rs).blockTimeMs =
      c.blockTimeMs + UInt64.ofNat ((Record.waits rs).map Duration.cutMillis).sum := by
  induction rs generalizing c with
  | nil => exact (UInt64.add_zero _).symm
  | cons r rs ih =>
    have hwaits : ((Record.waits (r :: rs)).map Duration.cutMillis).sum =
        r.waited?.elim 0 Duration.cutMillis + ((Record.waits rs).map Duration.cutMillis).sum := by
      rcases r with _ | (_ | _) | _ | _ | _ | _
      case blocked waited => exact List.sum_cons
      all_goals exact (Nat.zero_add _).symm
    rw [recordAll_cons, ih, blockTimeMs_record, hwaits, UInt64.ofNat_add, UInt64.add_assoc]

/-- From nothing the waits of some records add up to their sum as a machine word, which wraps. -/
theorem toNat_blockTimeMs_recordAll (rs : List Record) :
    (({} : Counters).recordAll rs).blockTimeMs.toNat =
      ((Record.waits rs).map Duration.cutMillis).sum % UInt64.size := by
  rw [blockTimeMs_recordAll, UInt64.zero_add]
  exact UInt64.toNat_ofNat'

/-- The sum of waits whose exact total fits into a word is that of their milliseconds. -/
theorem toNat_blockTimeMs_of_fits {rs : List Record}
    (hfits : Duration.total (Record.waits rs) < 1_000_000 * UInt64.size) :
    (({} : Counters).recordAll rs).blockTimeMs.toNat =
      ((Record.waits rs).map Duration.millis).sum := by
  have huncut : (Record.waits rs).map Duration.cutMillis = (Record.waits rs).map Duration.millis :=
    List.map_congr_left fun d hd => Duration.cutMillis_eq hfits hd
  have hle := Duration.sum_millis_le (Record.waits rs)
  rw [toNat_blockTimeMs_recordAll, huncut]
  apply Nat.mod_eq_of_lt
  omega

/-- What a throttle shows after some records, and which counters a recorder was told, does not
depend on their order. Each counter is the number of its records as a machine word, which the
recorder shows as it is once there is one. The sum of the waits is that of their milliseconds,
each cut to a word, as a machine word. If the exact total of the waits fits into a word, the
sum does not exceed it and falls short of it by less than a millisecond for each wait, so the
whole milliseconds that a wait took on average are not overstated. -/
theorem totals_of_records (rs : List Record) :
    let counters := ({} : Counters).recordAll rs
    let waits := Record.waits rs
    let millis := counters.blockTimeMs.toNat
    (∀ rs' : List Record, rs'.Perm rs →
        (∀ held, (⟨({} : Counters).recordAll rs', held⟩ : Metrics) = ⟨counters, held⟩) ∧
          (Export.ofSignals (Record.told rs')).counters =
            (Export.ofSignals (Record.told rs)).counters) ∧
      (∀ m : Meter,
        let n := rs.countP (·.meter = m)
        (m.ofCounters counters).toNat = n % UInt64.size ∧
          (Export.ofSignals (Record.told rs)).counter? m.name = if n = 0 then none else some n) ∧
      waits.length = rs.countP (·.meter = .blockedWrites) ∧
      (waits.length < UInt64.size → counters.blockedWrites.toNat = waits.length) ∧
      millis = (waits.map fun d => min d.millis (UInt64.size - 1)).sum % UInt64.size ∧
      (Duration.total waits < 1_000_000 * UInt64.size →
        1_000_000 * millis ≤ Duration.total waits ∧
          (0 < waits.length → Duration.total waits < 1_000_000 * (millis + waits.length)) ∧
          1_000_000 * (waits.length * (millis / waits.length)) ≤ Duration.total waits) := by
  intro counters waits millis
  have hwaits : waits.length = rs.countP (·.meter = .blockedWrites) := Record.length_waits rs
  refine ⟨?_, ?_, hwaits, ?_, toNat_blockTimeMs_recordAll rs, ?_⟩
  · intro rs' hperm
    refine ⟨fun held => ?_, Export.counters_ofSignals_perm (hperm.flatMap_right _)⟩
    rw [recordAll_perm _ hperm]
  · intro m n
    refine ⟨m.toNat_ofCounters_recordAll rs, ?_⟩
    rw [Export.counter?_ofSignals, Signal.counter?_eq, Record.count_told]
  · intro hfew
    have hcounted := Meter.toNat_ofCounters_recordAll .blockedWrites rs
    rwa [← hwaits, Nat.mod_eq_of_lt hfew] at hcounted
  · intro hfits
    have hmillis : millis = (waits.map Duration.millis).sum := toNat_blockTimeMs_of_fits hfits
    have hle : 1_000_000 * millis ≤ Duration.total waits := by
      rw [hmillis]
      exact Duration.sum_millis_le waits
    have hshort := Duration.total_add_length_le waits
    rw [← hmillis] at hshort
    refine ⟨hle, fun hpos => by omega, ?_⟩
    exact (Nat.mul_le_mul_left _ (Nat.mul_div_le _ _)).trans hle

/-- Two waits of one and a half and of two and a half milliseconds, among other records. -/
def twoWaits : List Record :=
  [.throttled, .blocked (.ofNanos 1_500_000), .wakeup, .throttled, .blocked (.ofNanos 2_500_000)]

/-- Of their four milliseconds three are counted, in this order and in the other one. -/
theorem totals_of_records_twoWaits :
    let counters := ({} : Counters).recordAll twoWaits
    let millis := counters.blockTimeMs.toNat
    Duration.total (Record.waits twoWaits) = 4_000_000 ∧ millis = 3 ∧
      1_000_000 * millis ≤ 4_000_000 ∧ 4_000_000 < 1_000_000 * (millis + 2) ∧
      (⟨({} : Counters).recordAll twoWaits.reverse, 1⟩ : Metrics) = ⟨counters, 1⟩ := by
  intro counters millis
  have htotal : Duration.total (Record.waits twoWaits) = 4_000_000 := by decide
  obtain ⟨horder, -, -, -, -, hsum⟩ := totals_of_records twoWaits
  obtain ⟨hle, hshort, -⟩ := hsum (by rw [htotal]; decide)
  rw [htotal] at hle hshort
  exact ⟨htotal, by decide, hle, hshort (by decide),
    (horder _ (List.reverse_perm _)).1 1⟩

end Counters

end Backpressure
