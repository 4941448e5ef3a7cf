import Backpressure.Proofs.Wakeups
set_option autoImplicit false

/-!
# What the counters add up to

Each counter is the number of records of one kind, which is the number of writes that
something happened to. A throttled write passes with a warning, is rejected, waits, has
waited, or was broken off while it did, so the counters balance after every move. The
policies and limits may change at any time: a write goes by the policy that it came with.
-/

namespace Backpressure

/-- The counter that a record moves. -/
def Record.meter : Record → Meter
  | throttled => .throttledWrites
  | warning true => .warningsLogged
  | warning false => .warningsSuppressed
  | blocked _ => .blockedWrites
  | rejected => .rejectedWrites
  | timedOut => .timedOutWrites
  | wakeup => .wakeups

/-- A record moves its own counter by one and no other one. -/
theorem Meter.ofCounters_record (m : Meter) (c : Counters) (r : Record) :
    m.ofCounters (c.record r) =
      m.ofCounters c + UInt64.ofNat (if r.meter = m then 1 else 0) := by
  rcases r with _ | (_ | _) | _ | _ | _ | _ <;> cases m <;>
    simp [Record.meter, Meter.ofCounters, Counters.record]

namespace Pipeline

/-! ## Readings of the past -/

/-- How often a counter was moved. -/
def tally (m : Meter) : List Happening → Nat
  | [] => 0
  | .recorded r :: earlier => tally m earlier + if r.meter = m then 1 else 0
  | _ :: earlier => tally m earlier

/-- The writes that were throttled under one of some policies. -/
def throttledUnder (p : Policy → Bool) : List Happening → List Nat
  | [] => []
  | .throttled t policy :: earlier =>
    if p policy then t :: throttledUnder p earlier else throttledUnder p earlier
  | _ :: earlier => throttledUnder p earlier

/-- The writes that were refused in one of some ways. -/
def refusedWith (p : Refusal → Bool) : List Happening → List Nat
  | [] => []
  | .ended t (.refused e) :: earlier =>
    if p e then t :: refusedWith p earlier else refusedWith p earlier
  | _ :: earlier => refusedWith p earlier

/-- The writes whose wait was broken off. -/
def brokenOff : List Happening → List Nat
  | [] => []
  | .left t none :: earlier => t :: brokenOff earlier
  | _ :: earlier => brokenOff earlier

/-- The writes that came to their end. -/
def finished : List Happening → List Nat
  | [] => []
  | .ended t _ :: earlier => t :: finished earlier
  | _ :: earlier => finished earlier

namespace Course

variable {c c' : Course} {w : Waiter} {session : Nat} {request : Request} {now : Instant}

/-! ## Warnings and ends of waits -/

section Trails

variable (t : Nat) (m : Meter) (p : Policy → Bool) (q : Refusal → Bool) (e : WaitEnd)
  (past : List Happening)

theorem tally_warnTrail :
    tally m (c.warnTrail t session now ++ past) =
      tally m past +
        if (Record.warning (c.world.throttle.gate.ask now
          c.world.throttle.config.logInterval).2).meter = m then 1 else 0 := by
  unfold warnTrail
  dsimp only
  split <;> rfl

@[simp] theorem tally_warnTrail_of_ne (hl : .warningsLogged ≠ m)
    (hs : .warningsSuppressed ≠ m) :
    tally m (c.warnTrail t session now ++ past) = tally m past := by
  rw [tally_warnTrail]
  cases (c.world.throttle.gate.ask now c.world.throttle.config.logInterval).2 with
  | false => exact if_neg hs ▸ rfl
  | true => exact if_neg hl ▸ rfl

/-- A warning is counted once, as written or as suppressed. -/
@[simp] theorem tally_warnTrail_add :
    tally .warningsLogged (c.warnTrail t session now ++ past) +
        tally .warningsSuppressed (c.warnTrail t session now ++ past) =
      tally .warningsLogged past + tally .warningsSuppressed past + 1 := by
  rw [tally_warnTrail, tally_warnTrail]
  cases (c.world.throttle.gate.ask now c.world.throttle.config.logInterval).2 with
  | false => exact (Nat.add_assoc _ _ _).symm
  | true => exact Nat.add_right_comm _ _ _

@[simp] theorem throttledUnder_warnTrail :
    throttledUnder p (c.warnTrail t session now ++ past) = throttledUnder p past :=
  warnTrail_append c t session now (fun _ _ _ _ => rfl) (fun _ _ => rfl) (fun _ _ => rfl) past

@[simp] theorem refusedWith_warnTrail :
    refusedWith q (c.warnTrail t session now ++ past) = refusedWith q past :=
  warnTrail_append c t session now (fun _ _ _ _ => rfl) (fun _ _ => rfl) (fun _ _ => rfl) past

@[simp] theorem brokenOff_warnTrail :
    brokenOff (c.warnTrail t session now ++ past) = brokenOff past :=
  warnTrail_append c t session now (fun _ _ _ _ => rfl) (fun _ _ => rfl) (fun _ _ => rfl) past

@[simp] theorem finished_warnTrail :
    finished (c.warnTrail t session now ++ past) = finished past :=
  warnTrail_append c t session now (fun _ _ _ _ => rfl) (fun _ _ => rfl) (fun _ _ => rfl) past

end Trails

/-! ## The balance -/

/-- The records of a course agree with what happened to its writes. -/
structure Balanced (c : Course) : Prop where
  throttled : tally .throttledWrites c.past = (throttledUnder (fun _ => true) c.past).length
  warned : tally .warningsLogged c.past + tally .warningsSuppressed c.past =
    (throttledUnder Policy.warns c.past).length
  rejected : tally .rejectedWrites c.past = (refusedWith (!·.isTimeout) c.past).length
  timedOut : tally .timedOutWrites c.past = (refusedWith Refusal.isTimeout c.past).length
  waited : tally .timedOutWrites c.past ≤ tally .blockedWrites c.past
  balance : tally .throttledWrites c.past =
    (throttledUnder (· = .log) c.past).length + tally .rejectedWrites c.past +
      tally .blockedWrites c.past + c.world.throttle.waiting.length + (brokenOff c.past).length

namespace Balanced

theorem start (s : Settings) : Balanced (Course.start s) :=
  ⟨rfl, rfl, rfl, rfl, Nat.le_refl 0, rfl⟩

theorem written (h : Balanced c) (hw : Written c session request now c') : Balanced c' := by
  obtain ⟨hthrottled, hwarned, hrejected, htimedOut, hwaited, hbalance⟩ := h
  cases hw with
  | untouched hp | ready hp hv | lost hp hv =>
    exact ⟨hthrottled, hwarned, hrejected, htimedOut, hwaited, hbalance⟩
  | passes hp hv | rejected hp hv | waits hp hv | warnsAndWaits hp hv =>
    -- one record and one write on each side of every equation
    constructor <;>
      simp [tally, throttledUnder, refusedWith, brokenOff, Policy.warns, Record.meter] <;> omega

theorem passed (h : Balanced c) (ho : Orderly c) (hw : w ∈ c.world.throttle.waiting)
    (hp : Passed c w now c') : Balanced c' := by
  obtain ⟨hthrottled, hwarned, hrejected, htimedOut, hwaited, hbalance⟩ := h
  have hlength := ho.length_filter_ticket hw
  cases hp with
  | stays hk => exact ⟨hthrottled, hwarned, hrejected, htimedOut, hwaited, hbalance⟩
  | goesOn hv | givesUp hv hd hn | breaks hv =>
    constructor <;>
      simp [releaseTrail, tally, throttledUnder, refusedWith, brokenOff, Record.meter] <;> omega

theorem move (ho : Orderly c) (h : Balanced c) (hm : Move c c') : Balanced c' := by
  cases hm with
  | write hw => exact h.written hw
  | pass hw hp => exact h.passed ho hw hp
  | surround _ _ _ _ | wakeup _ | call _ | answer _ =>
    exact ⟨h.throttled, h.warned, h.rejected, h.timedOut, h.waited, h.balance⟩

theorem run (s : Settings) (actions : List Action) : Balanced ((Course.start s).run actions) :=
  invariant_run (P := Balanced) Balanced.move (.start s) (.start s) actions

end Balanced

/-! ## The counters -/

/-- The counters of the throttle are what was recorded, as machine words. -/
def Counted (c : Course) : Prop :=
  ∀ m : Meter, m.ofCounters c.world.throttle.counters = UInt64.ofNat (tally m c.past)

namespace Counted

theorem written (h : Counted c) (hw : Written c session request now c') : Counted c' := by
  intro m
  have hm := h m
  cases hw with
  | untouched hp | ready hp hv | lost hp hv => exact hm
  | passes hp hv | warnsAndWaits hp hv =>
    simp [Meter.ofCounters_record, tally, tally_warnTrail, hm]
    rfl
  | rejected hp hv | waits hp hv =>
    simp [Meter.ofCounters_record, tally, hm]

theorem passed (h : Counted c) (hp : Passed c w now c') : Counted c' := by
  intro m
  have hm := h m
  cases hp with
  | stays hk => exact hm
  | goesOn hv | givesUp hv hd hn | breaks hv =>
    simp [releaseTrail, Meter.ofCounters_record, tally, hm]

theorem move (_ : Orderly c) (h : Counted c) (hm : Move c c') : Counted c' := by
  cases hm with
  | write hw => exact h.written hw
  | pass _ hp => exact h.passed hp
  | surround _ _ _ _ | call _ | answer _ => exact h
  | wakeup _ =>
    intro m
    simp [Meter.ofCounters_record, tally, h m]

theorem run (s : Settings) (actions : List Action) : Counted ((Course.start s).run actions) :=
  invariant_run (P := Counted) Counted.move (.start s) (fun m => by cases m <;> rfl) actions

/-- A counter that was not moved too often shows how often it was. -/
theorem toNat_eq (h : Counted c) {m : Meter} (hm : tally m c.past < UInt64.size) :
    (m.ofCounters c.world.throttle.counters).toNat = tally m c.past := by
  rw [h m]
  exact UInt64.toNat_ofNat_of_lt' hm

end Counted

/-! ## Each write once -/

/-- A write is throttled once at most, under the policy that it came with. It has ended
once or still waits; a wait that was broken off belongs to a write that has ended, and its
session could not be read. -/
structure Distinct (c : Course) : Prop where
  throttled : (throttledUnder (fun _ => true) c.past).Sublist (List.range c.world.arrivals).reverse
  ended : (finished c.past ++ c.world.throttle.waiting.map Waiter.ticket).Perm
    (List.range c.world.arrivals)
  broken : (brokenOff c.past).Sublist (finished c.past)
  lost : ∀ t ∈ brokenOff c.past, ∃ s look, .looked t s look ∈ c.past ∧ look.verdict = .unreadable
  entry : ∀ t p, .throttled t p ∈ c.past → ∃ s r, .arrived t s r p ∈ c.past

theorem Written.throttledUnder (hw : Written c session request now c') (p : Policy → Bool) :
    Pipeline.throttledUnder p c'.past = Pipeline.throttledUnder p c.past ∨
      Pipeline.throttledUnder p c'.past = c.world.arrivals :: Pipeline.throttledUnder p c.past := by
  cases hw <;> simp [Pipeline.throttledUnder]

/-- A new write either comes to its end or starts to wait. -/
theorem Written.finished (hw : Written c session request now c') :
    (Pipeline.finished c'.past = c.world.arrivals :: Pipeline.finished c.past ∧
        c'.world.throttle.waiting = c.world.throttle.waiting) ∨
      (Pipeline.finished c'.past = Pipeline.finished c.past ∧
        c'.world.throttle.waiting =
          c.world.throttle.waiting ++ [c.newWaiter session request now]) := by
  cases hw <;> simp [Pipeline.finished]

theorem Written.brokenOff (hw : Written c session request now c') :
    Pipeline.brokenOff c'.past = Pipeline.brokenOff c.past := by
  cases hw <;> simp [Pipeline.brokenOff]

/-- The writer of a pass stays, or its write comes to its end. -/
theorem Passed.finished (hp : Passed c w now c') :
    (Pipeline.finished c'.past = Pipeline.finished c.past ∧
        Pipeline.brokenOff c'.past = Pipeline.brokenOff c.past ∧
        c'.world.throttle.waiting = c.world.throttle.waiting) ∨
      (Pipeline.finished c'.past = w.ticket :: Pipeline.finished c.past ∧
        (Pipeline.brokenOff c'.past = Pipeline.brokenOff c.past ∨
          Pipeline.brokenOff c'.past = w.ticket :: Pipeline.brokenOff c.past ∧
            c.world.verdict w.session = .unreadable) ∧
        c'.world.throttle.waiting =
          c.world.throttle.waiting.filter (·.ticket != w.ticket)) := by
  cases hp with
  | stays hk => exact .inl ⟨rfl, rfl, rfl⟩
  | goesOn hv | givesUp hv hd hn => exact .inr ⟨rfl, .inl rfl, rfl⟩
  | breaks hv => exact .inr ⟨rfl, .inr ⟨rfl, hv⟩, rfl⟩

theorem Passed.throttledUnder (hp : Passed c w now c') (p : Policy → Bool) :
    Pipeline.throttledUnder p c'.past = Pipeline.throttledUnder p c.past := by
  cases hp <;> rfl

theorem Passed.throttled_mem_iff (hp : Passed c w now c') {t : Nat} {p : Policy} :
    .throttled t p ∈ c'.past ↔ .throttled t p ∈ c.past := by
  cases hp <;> simp [releaseTrail]

theorem Passed.looked_mem (hp : Passed c w now c') :
    .looked w.ticket w.session (c.world.look w.session) ∈ c'.past := by
  cases hp <;> simp

theorem Written.throttled_mem (hw : Written c session request now c') {t : Nat} {p : Policy}
    (h : .throttled t p ∈ c'.past) :
    (t = c.world.arrivals ∧ p = c.world.throttle.config.policy) ∨ .throttled t p ∈ c.past := by
  cases hw <;> simp_all

namespace Distinct

theorem start (s : Settings) : Distinct (Course.start s) := by
  constructor <;> simp [Course.start, throttledUnder, finished, brokenOff, Throttle.ofSettings]

theorem written (h : Distinct c) (hw : Written c session request now c') : Distinct c' := by
  have harrivals := hw.arrivals
  have hrange : (List.range (c.world.arrivals + 1)).reverse =
      c.world.arrivals :: (List.range c.world.arrivals).reverse := by
    rw [List.range_succ, List.reverse_append]
    rfl
  constructor
  case throttled =>
    rw [harrivals, hrange]
    rcases hw.throttledUnder (fun _ => true) with heq | heq
    · rw [heq]
      exact h.throttled.cons _
    · rw [heq]
      exact h.throttled.cons_cons _
  case ended =>
    rw [harrivals, List.range_succ]
    rcases hw.finished with ⟨heq, hwaiting⟩ | ⟨heq, hwaiting⟩
    · rw [heq, hwaiting]
      exact (h.ended.cons _).trans (List.perm_append_singleton _ _).symm
    · rw [heq, hwaiting, List.map_append, ← List.append_assoc]
      exact h.ended.append_right _
  case broken =>
    rw [hw.brokenOff]
    rcases hw.finished with ⟨heq, -⟩ | ⟨heq, -⟩
    · rw [heq]
      exact h.broken.cons _
    · rw [heq]
      exact h.broken
  case lost =>
    rw [hw.brokenOff]
    intro t ht
    obtain ⟨s, look, hlook, hv⟩ := h.lost t ht
    exact ⟨s, look, hw.past_suffix.subset hlook, hv⟩
  case entry =>
    intro t p hm
    rcases hw.throttled_mem hm with ⟨rfl, rfl⟩ | hm
    · exact ⟨session, request, hw.arrived_mem_iff.mpr (.inl ⟨rfl, rfl, rfl, rfl⟩)⟩
    · obtain ⟨s, r, ha⟩ := h.entry t p hm
      exact ⟨s, r, hw.past_suffix.subset ha⟩

theorem passed (h : Distinct c) (ho : Orderly c) (hw : w ∈ c.world.throttle.waiting)
    (hp : Passed c w now c') : Distinct c' := by
  have harrivals := hp.arrivals
  have hpast := hp.past_suffix
  constructor
  case throttled =>
    rw [hp.throttledUnder, harrivals]
    exact h.throttled
  case ended =>
    rw [harrivals]
    refine List.Perm.trans ?_ h.ended
    rcases hp.finished with ⟨heq, -, hwaiting⟩ | ⟨heq, -, hwaiting⟩
    · rw [heq, hwaiting]
    · rw [heq, hwaiting, ho.filter_eq_erase hw, List.cons_append]
      refine List.perm_middle.symm.trans (List.Perm.append_left _ ?_)
      exact ((List.perm_cons_erase hw).map Waiter.ticket).symm
  case broken =>
    rcases hp.finished with ⟨heq, hbroken, -⟩ | ⟨heq, hbroken | ⟨hbroken, -⟩, -⟩
    · rw [heq, hbroken]
      exact h.broken
    · rw [heq, hbroken]
      exact h.broken.cons _
    · rw [heq, hbroken]
      exact h.broken.cons_cons _
  case lost =>
    have hbefore : ∀ t ∈ brokenOff c.past,
        ∃ s look, .looked t s look ∈ c'.past ∧ look.verdict = .unreadable := by
      intro t ht
      obtain ⟨s, look, hlook, hv⟩ := h.lost t ht
      exact ⟨s, look, hpast.subset hlook, hv⟩
    rcases hp.finished with ⟨-, hbroken, -⟩ | ⟨-, hbroken | ⟨hbroken, hv⟩, -⟩
    · rwa [hbroken]
    · rwa [hbroken]
    · rw [hbroken]
      intro t ht
      rcases List.mem_cons.mp ht with rfl | ht
      · exact ⟨w.session, c.world.look w.session, hp.looked_mem, hv⟩
      · exact hbefore t ht
  case entry =>
    intro t p hm
    obtain ⟨s, r, ha⟩ := h.entry t p (hp.throttled_mem_iff.mp hm)
    exact ⟨s, r, hpast.subset ha⟩

theorem move (ho : Orderly c) (h : Distinct c) (hm : Move c c') : Distinct c' := by
  have hpast := hm.past_suffix
  have hlost : ∀ t ∈ brokenOff c.past,
      ∃ s look, .looked t s look ∈ c'.past ∧ look.verdict = .unreadable := by
    intro t ht
    obtain ⟨s, look, hlook, hv⟩ := h.lost t ht
    exact ⟨s, look, hpast.subset hlook, hv⟩
  have hentry : ∀ t p, .throttled t p ∈ c.past → ∃ s r, .arrived t s r p ∈ c'.past := by
    intro t p hm
    obtain ⟨s, r, ha⟩ := h.entry t p hm
    exact ⟨s, r, hpast.subset ha⟩
  cases hm with
  | write hw => exact h.written hw
  | pass hw hp => exact h.passed ho hw hp
  | surround config ledger stage numbering =>
    exact ⟨h.throttled, h.ended, h.broken, hlost, hentry⟩
  | wakeup _ | call _ =>
    refine ⟨h.throttled, h.ended, h.broken, hlost, ?_⟩
    intro t p hm
    exact hentry t p (by simpa using hm)
  | answer o =>
    refine ⟨h.throttled, h.ended, h.broken, hlost, ?_⟩
    intro t p hm
    exact hentry t p (by simpa [answer] using hm)

theorem run (s : Settings) (actions : List Action) : Distinct ((Course.start s).run actions) :=
  invariant_run (P := Distinct) Distinct.move (.start s) (.start s) actions

end Distinct

/-! ## Wakes that reach a writer -/

/-- An action wakes the held writers while there is one. -/
def reaches (c : Course) (a : Action) : Bool :=
  (c.world.atWake a).any fun w => !w.throttle.waiting.isEmpty

/-- How many actions of a run wake the held writers while there is one. -/
def wakes (c : Course) : List Action → Nat
  | [] => 0
  | a :: as => (if c.reaches a then 1 else 0) + (c.step a).wakes as

theorem Written.tally_wakeups (hw : Written c session request now c') :
    tally .wakeups c'.past = tally .wakeups c.past := by
  cases hw <;> simp [tally, Record.meter]

theorem Passed.tally_wakeups (hp : Passed c w now c') :
    tally .wakeups c'.past = tally .wakeups c.past := by
  cases hp <;> simp [releaseTrail, tally, Record.meter]

/-- A wake is counted if a writer is held. -/
theorem tally_wakeups_wake (h : Orderly c) (m : Moment) :
    tally .wakeups (c.wake m).past =
      tally .wakeups c.past + if !c.world.throttle.waiting.isEmpty then 1 else 0 := by
  unfold wake
  rw [h.counted]
  cases hw : c.world.throttle.waiting with
  | nil => rfl
  | cons w ws =>
    rw [if_neg (by simp), reading_passAll (f := fun c => tally .wakeups c.past)
      Passed.tally_wakeups]
    rfl

/-- An action is counted as a wakeup if it wakes the held writers while there is one. -/
theorem tally_wakeups_step (h : Orderly c) (a : Action) :
    tally .wakeups (c.step a).past =
      tally .wakeups c.past + if c.reaches a then 1 else 0 := by
  cases a with
  | post _ | configure _ | direct _ => rfl
  | expire ticket now =>
    exact reading_expire (f := fun c => tally .wakeups c.past) Passed.tally_wakeups ticket now
  | write session payload now =>
    exact reading_write (c := c.issuing payload) (f := fun c => tally .wakeups c.past)
      Written.tally_wakeups Passed.tally_wakeups
  | wake m | closed session m => exact tally_wakeups_wake h m
  | sent session payload m => exact tally_wakeups_wake (h.issuing payload) m
  | exception session cause m => exact tally_wakeups_wake (h.alarmed session cause) m

theorem tally_wakeups_run (h : Orderly c) (as : List Action) :
    tally .wakeups (c.run as).past = tally .wakeups c.past + c.wakes as := by
  induction as generalizing c with
  | nil => rfl
  | cons a as ih =>
    rw [run_cons, ih (h.step a), tally_wakeups_step h, wakes, Nat.add_assoc]

/-! ## Runs -/

theorem throttledUnder_sublist (p : Policy → Bool) (past : List Happening) :
    (throttledUnder p past).Sublist (throttledUnder (fun _ => true) past) := by
  induction past with
  | nil => exact List.Sublist.refl _
  | cons h earlier ih =>
    cases h with
    | throttled t policy =>
      simp only [throttledUnder]
      split
      · exact ih.cons_cons t
      · exact ih.cons t
    | _ => exact ih

theorem refusedWith_sublist (p : Refusal → Bool) (past : List Happening) :
    (refusedWith p past).Sublist (finished past) := by
  induction past with
  | nil => exact List.Sublist.refl _
  | cons h earlier ih =>
    cases h with
    | ended t ending =>
      cases ending with
      | refused e =>
        simp only [refusedWith, finished]
        split
        · exact ih.cons_cons t
        · exact ih.cons t
      | forwarded o | lost => exact ih.cons t
    | _ => exact ih

/-- In every course of a run the counters balance: a throttled write has passed with a
warning, was rejected, has waited, waits, or was broken off while it did. Each throttled
write that came under a policy that warns is one warning, written or suppressed; each
refusal is counted by its kind, each wake that found a writer once. The lists of writes
name each of them once, and the policies in them are those that the writes came with. -/
theorem metrics_balance (s : Settings) (actions : List Action) :
    let c := (Course.start s).run actions
    let m := c.world.throttle.metrics
    let n := m.counters
    (throttledUnder (fun _ => true) c.past).length < UInt64.size →
    (Course.start s).wakes actions < UInt64.size →
      n.throttledWrites.toNat = (throttledUnder (fun _ => true) c.past).length ∧
      n.throttledWrites.toNat =
        (throttledUnder (· = .log) c.past).length + n.rejectedWrites.toNat +
          n.blockedWrites.toNat + m.currentWaiters + (brokenOff c.past).length ∧
      n.warningsLogged.toNat + n.warningsSuppressed.toNat =
        (throttledUnder (fun p => p = .log || p = .logAndBlock) c.past).length ∧
      n.rejectedWrites.toNat = (refusedWith (!·.isTimeout) c.past).length ∧
      n.timedOutWrites.toNat = (refusedWith Refusal.isTimeout c.past).length ∧
      n.timedOutWrites.toNat ≤ n.blockedWrites.toNat ∧
      n.wakeups.toNat = (Course.start s).wakes actions ∧
      (∀ p, (throttledUnder p c.past).Nodup) ∧ (∀ p, (refusedWith p c.past).Nodup) ∧
      (brokenOff c.past).Nodup ∧
      (∀ t p, .throttled t p ∈ c.past → ∃ x r, .arrived t x r p ∈ c.past) ∧
      ∀ t ∈ brokenOff c.past, ∃ x look, .looked t x look ∈ c.past ∧ look.verdict = .unreadable := by
  intro c m n hfew hwakes
  have horderly : Orderly c := orderly_run s actions
  have hbalanced : Balanced c :=
    invariant_run (P := Balanced) Balanced.move (.start s) (.start s) actions
  have hcounted : Counted c :=
    invariant_run (P := Counted) Counted.move (.start s) (fun m => by cases m <;> rfl) actions
  have hdistinct : Distinct c :=
    invariant_run (P := Distinct) Distinct.move (.start s) (.start s) actions
  have hwakeups : tally .wakeups c.past = (Course.start s).wakes actions :=
    (tally_wakeups_run (.start s) actions).trans (Nat.zero_add _)
  obtain ⟨hthrottled, hwarned, hrejected, htimedOut, hwaited, hbalance⟩ := hbalanced
  have hwarns : (throttledUnder Policy.warns c.past).length ≤
      (throttledUnder (fun _ => true) c.past).length :=
    (throttledUnder_sublist _ _).length_le
  -- no counter has been moved more often than there were throttled writes
  have hn : n.throttledWrites.toNat = tally .throttledWrites c.past :=
    hcounted.toNat_eq (m := .throttledWrites) (by omega)
  have hl : n.warningsLogged.toNat = tally .warningsLogged c.past :=
    hcounted.toNat_eq (m := .warningsLogged) (by omega)
  have hs : n.warningsSuppressed.toNat = tally .warningsSuppressed c.past :=
    hcounted.toNat_eq (m := .warningsSuppressed) (by omega)
  have hb : n.blockedWrites.toNat = tally .blockedWrites c.past :=
    hcounted.toNat_eq (m := .blockedWrites) (by omega)
  have hr : n.rejectedWrites.toNat = tally .rejectedWrites c.past :=
    hcounted.toNat_eq (m := .rejectedWrites) (by omega)
  have ht : n.timedOutWrites.toNat = tally .timedOutWrites c.past :=
    hcounted.toNat_eq (m := .timedOutWrites) (by omega)
  have hw : n.wakeups.toNat = tally .wakeups c.past :=
    hcounted.toNat_eq (m := .wakeups) (by omega)
  have hwaiters : m.currentWaiters = c.world.throttle.waiting.length := horderly.counted
  have hpolicies : Policy.warns = fun p => p = .log || p = .logAndBlock := by
    funext p
    cases p <;> rfl
  have hfinished : (finished c.past).Nodup :=
    (hdistinct.ended.nodup_iff.mpr List.nodup_range).of_append_left
  have hall : (throttledUnder (fun _ => true) c.past).Nodup :=
    (List.nodup_reverse.mpr List.nodup_range).sublist hdistinct.throttled
  refine ⟨by rw [hn, hthrottled], by rw [hn, hr, hb, hwaiters, hbalance], ?_,
    by rw [hr, hrejected], by rw [ht, htimedOut], by rw [ht, hb]; exact hwaited,
    by rw [hw, hwakeups], fun p => hall.sublist (throttledUnder_sublist p _),
    fun p => hfinished.sublist (refusedWith_sublist p _), hfinished.sublist hdistinct.broken,
    hdistinct.entry, hdistinct.lost⟩
  rw [hl, hs, hwarned, hpolicies]

/-- Writes under three policies: one passes with a warning, one is rejected, one waits until
its session is lost, and one waits on. -/
def mixed : List Action :=
  [.post .openService, .post (.openSession 0), .post (.openSession 0),
   .post (.schedule 0 10), .post (.schedule 1 10), .write 0 [1] 5,
   .configure (.policy .exception), .write 0 [2] 6,
   .configure (.policy .logAndBlock), .write 0 [3] 7, .write 1 [4] 8,
   .post (.lose 0), .wake { now := 9 }]

/-- The course of the four writes. -/
def mixedEnd : Course := (Course.start { limits := ⟨1, 0, 0, 0⟩ }).run mixed

/-- The four writes are in five accounts, and they balance. -/
theorem metrics_balance_mixed :
    (throttledUnder (fun _ => true) mixedEnd.past).length = 4 ∧
      (throttledUnder (· = .log) mixedEnd.past).length = 1 ∧
      (brokenOff mixedEnd.past).length = 1 ∧
      mixedEnd.world.throttle.metrics.counters.throttledWrites.toNat =
        (throttledUnder (· = .log) mixedEnd.past).length +
          mixedEnd.world.throttle.metrics.counters.rejectedWrites.toNat +
          mixedEnd.world.throttle.metrics.counters.blockedWrites.toNat +
          mixedEnd.world.throttle.metrics.currentWaiters + (brokenOff mixedEnd.past).length := by
  have hfour : (throttledUnder (fun _ => true) mixedEnd.past).length = 4 := by decide +kernel
  have hfew : (throttledUnder (fun _ => true) mixedEnd.past).length < UInt64.size := by
    rw [hfour]
    decide
  have hwakes : (Course.start { limits := ⟨1, 0, 0, 0⟩ }).wakes mixed < UInt64.size := by
    decide +kernel
  have hbalance := metrics_balance { limits := ⟨1, 0, 0, 0⟩ } mixed hfew hwakes
  exact ⟨hfour, by decide +kernel, by decide +kernel, hbalance.2.1⟩

end Course

end Pipeline

end Backpressure
