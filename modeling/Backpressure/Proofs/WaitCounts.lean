import Backpressure.Proofs.Accounts
import Backpressure.Proofs.Waiters
set_option autoImplicit false

/-!
# Waits that began and waits that are counted

A wait is counted together with its length, so not before it has come to its end. The counter
of blocked writes is therefore behind the number of writes that started to wait: by the writers
that still wait, and for good by those whose wait was broken off.

A moment of a course is a suffix of its past, which stands latest first. At each of them the
writes that started to wait are those that were released, those that wait and those whose wait
was broken off; and a released writer is counted before anything else happens.
-/

namespace Backpressure.Pipeline

/-! ## Readings of the past -/

/-- The writes that started to wait. -/
def begun : List Happening → List Nat
  | [] => []
  | .entered t _ :: earlier => t :: begun earlier
  | _ :: earlier => begun earlier

/-- The writes whose wait came to its end: they went on or were given up. -/
def released : List Happening → List Nat
  | [] => []
  | .left t (some _) :: earlier => t :: released earlier
  | _ :: earlier => released earlier

/-- Every wait that came to its end was counted as the next thing, and nothing else was
counted as a wait. -/
def UpToDate : List Happening → Prop
  | [] => True
  | .recorded (.blocked _) :: .left _ (some _) :: earlier => UpToDate earlier
  | .recorded (.blocked _) :: _ => False
  | .left _ (some _) :: _ => False
  | _ :: earlier => UpToDate earlier

/-! ## Moments -/

variable {past moment : List Happening}

/-- Every write that started to wait was released, waits, or had its wait broken off. -/
theorem Paired.begun_perm (h : Paired past) :
    (begun past).Perm (released past ++ inside past ++ brokenOff past) := by
  induction past with
  | nil => exact List.Perm.refl _
  | cons x earlier ih =>
    cases x with
    | entered t b =>
      calc
        (t :: begun earlier).Perm (t :: (released earlier ++ inside earlier ++ brokenOff earlier)) :=
          (ih h.2).cons t
        List.Perm _ (released earlier ++ inside earlier ++ t :: brokenOff earlier) :=
          List.perm_middle.symm
        _ = released earlier ++ (inside earlier ++ [t]) ++ brokenOff earlier := by simp
    | left t e =>
      -- the writer that leaves is one of those that waited
      have hwaited : (released earlier ++ inside earlier).Perm
          (t :: (released earlier ++ (inside earlier).erase t)) :=
        ((List.perm_cons_erase h.1).append_left _).trans List.perm_middle
      have hbegun := (ih h.2).trans (hwaited.append_right (brokenOff earlier))
      cases e with
      | some e => exact hbegun
      | none => exact hbegun.trans List.perm_middle.symm
    | _ => exact ih h

namespace UpToDate

/-- The counter has the waits that came to their end. -/
theorem tally_eq (h : UpToDate past) : tally .blockedWrites past = (released past).length := by
  fun_induction UpToDate past with
  | case1 => rfl
  | case2 waited t e earlier ih => simp [tally, released, Record.meter, ih h]
  | case3 | case4 => exact h.elim
  | case5 x earlier hpair hcounts hends ih =>
    have hearlier := ih h
    cases x with
    | recorded r =>
      rcases r with _ | (_ | _) | waited | _ | _ | _
      case blocked => exact (hcounts waited rfl).elim
      all_goals exact hearlier
    | left t e =>
      cases e with
      | none => exact hearlier
      | some e => exact (hends t e rfl).elim
    | _ => exact hearlier

/-- At a moment on the way a wait may have come to its end just now. -/
theorem of_suffix (h : UpToDate past) (hm : moment <:+ past) :
    UpToDate moment ∨ ∃ t e earlier, moment = .left t (some e) :: earlier ∧ UpToDate earlier := by
  fun_induction UpToDate past with
  | case1 => exact .inl (List.suffix_nil.mp hm ▸ h)
  | case2 waited t e earlier ih =>
    rcases List.suffix_cons_iff.mp hm with rfl | hm
    · exact .inl h
    rcases List.suffix_cons_iff.mp hm with rfl | hm
    · exact .inr ⟨t, e, earlier, rfl, h⟩
    · exact ih h hm
  | case3 | case4 => exact h.elim
  | case5 x earlier hpair hcounts hends ih =>
    rcases List.suffix_cons_iff.mp hm with rfl | hm
    · refine .inl ?_
      rw [UpToDate] <;> assumption
    · exact ih h hm

end UpToDate

namespace Course

/-! ## Runs -/

variable {c c' : Course} {w : Waiter} {session : Nat} {request : Request} {now : Instant}

@[simp] theorem begun_warnTrail (t : Nat) (past : List Happening) :
    begun (c.warnTrail t session now ++ past) = begun past :=
  warnTrail_append c t session now (fun _ _ _ _ => rfl) (fun _ _ => rfl) (fun _ _ => rfl) past

@[simp] theorem upToDate_warnTrail (t : Nat) (past : List Happening) :
    UpToDate (c.warnTrail t session now ++ past) = UpToDate past :=
  warnTrail_append c t session now (fun _ _ _ _ => rfl) (fun _ _ => rfl) (fun _ _ => rfl) past

/-- The writes that started to wait are those that were throttled under a policy that holds,
and every wait that came to its end has been counted. -/
structure Begins (c : Course) : Prop where
  held : begun c.past = throttledUnder Policy.holds c.past
  counted : UpToDate c.past

namespace Begins

theorem start (s : Settings) : Begins (Course.start s) := ⟨rfl, trivial⟩

theorem written (h : Begins c) (hw : Written c session request now c') : Begins c' := by
  obtain ⟨hheld, hcounted⟩ := h
  cases hw with
  | untouched hp | ready hp hv | lost hp hv | passes hp hv | rejected hp hv | waits hp hv
  | warnsAndWaits hp hv =>
    constructor
    · simp [begun, throttledUnder, Policy.holds, newWaiter, hheld]
    · simpa [UpToDate] using hcounted

theorem passed (h : Begins c) (hp : Passed c w now c') : Begins c' := by
  obtain ⟨hheld, hcounted⟩ := h
  cases hp with
  | stays hk | goesOn hv | givesUp hv hd hn | breaks hv =>
    constructor
    · simp [releaseTrail, begun, throttledUnder, hheld]
    · simpa [releaseTrail, UpToDate] using hcounted

theorem move (_ : Orderly c) (h : Begins c) (hm : Move c c') : Begins c' := by
  cases hm with
  | write hw => exact h.written hw
  | pass _ hp => exact h.passed hp
  | surround _ _ _ _ | wakeup _ | call _ | answer _ => exact ⟨h.held, h.counted⟩

theorem run (s : Settings) (actions : List Action) : Begins ((Course.start s).run actions) :=
  invariant_run (P := Begins) Begins.move (.start s) (.start s) actions

end Begins

/-- In every course of a run the counter of blocked writes has the writes whose wait came to
its end, and no other ones. The writes that started to wait are those that were throttled
under a policy that holds, each of them once. There are more of them than the counter shows:
those that still wait and those whose wait was broken off, since their session could not be
read. So it was at every moment on the way, except that a wait which came to its end just now
is not counted yet. -/
theorem blocked_counts_released (s : Settings) (actions : List Action) :
    let c := (Course.start s).run actions
    let m := c.world.throttle.metrics
    let blocked := m.counters.blockedWrites
    begun c.past = throttledUnder Policy.holds c.past ∧ (begun c.past).Nodup ∧
      blocked = UInt64.ofNat (released c.past).length ∧
      (begun c.past).length =
        (released c.past).length + m.currentWaiters + (brokenOff c.past).length ∧
      ((begun c.past).length < UInt64.size →
        blocked.toNat + m.currentWaiters + (brokenOff c.past).length = (begun c.past).length ∧
        (blocked.toNat = (begun c.past).length ↔
          m.currentWaiters = 0 ∧ brokenOff c.past = [])) ∧
      ∀ moment, moment <:+ c.past →
        (begun moment).Perm (released moment ++ inside moment ++ brokenOff moment) ∧
          (tally .blockedWrites moment = (released moment).length ∨
            (∃ t e earlier, moment = .left t (some e) :: earlier) ∧
              tally .blockedWrites moment + 1 = (released moment).length) := by
  intro c m blocked
  have hbegins : Begins c := Begins.run s actions
  have htold : Told c := Told.run s actions
  have hcounted : Counted c := Counted.run s actions
  have hdistinct : Distinct c := Distinct.run s actions
  have htally : tally .blockedWrites c.past = (released c.past).length := hbegins.counted.tally_eq
  have hwaiters : m.currentWaiters = (inside c.past).length := by
    rw [← htold.paired.stored_eq, htold.keeps]
    rfl
  have hlength : (begun c.past).length =
      (released c.past).length + m.currentWaiters + (brokenOff c.past).length := by
    rw [htold.paired.begun_perm.length_eq, List.length_append, List.length_append, hwaiters]
  have hnodup : (begun c.past).Nodup := by
    rw [hbegins.held]
    exact (List.nodup_reverse.mpr List.nodup_range).sublist
      ((throttledUnder_sublist _ _).trans hdistinct.throttled)
  refine ⟨hbegins.held, hnodup, htally ▸ hcounted .blockedWrites, hlength, ?_, ?_⟩
  · intro hfew
    have hblocked : blocked.toNat = (released c.past).length := by
      rw [← htally]
      exact hcounted.toNat_eq (m := .blockedWrites) (by omega)
    refine ⟨by omega, ?_⟩
    rw [hblocked, hlength, ← List.length_eq_zero_iff]
    omega
  · intro moment hm
    refine ⟨(htold.paired.of_suffix hm).begun_perm, ?_⟩
    rcases hbegins.counted.of_suffix hm with hnow | ⟨t, e, earlier, rfl, hbefore⟩
    · exact .inl hnow.tally_eq
    · exact .inr ⟨⟨t, e, earlier, rfl⟩, congrArg (· + 1) hbefore.tally_eq⟩

/-- Three writers start to wait: the first one goes on, the second one is broken off since its
session is lost, and the third one waits on. -/
def threeFates : List Action :=
  [.post .openService, .post (.openSession 0), .post (.openSession 0), .post (.openSession 0),
   .post (.schedule 0 10), .post (.schedule 1 10), .post (.schedule 2 10), .write 0 [1] 5,
   .write 1 [2] 6, .write 2 [3] 7, .post (.complete 0 10), .post (.lose 1), .wake { now := 9 }]

/-- Of the three writes that started to wait one is counted. -/
theorem blocked_counts_released_threeFates :
    let c := (Course.start { policy := .block, limits := ⟨1, 0, 0, 0⟩ }).run threeFates
    let m := c.world.throttle.metrics
    (begun c.past).length = 3 ∧ m.currentWaiters = 1 ∧ (brokenOff c.past).length = 1 ∧
      m.counters.blockedWrites.toNat + m.currentWaiters + (brokenOff c.past).length =
        (begun c.past).length := by
  intro c m
  have hthree : (begun c.past).length = 3 := by decide
  have hfew : (begun c.past).length < UInt64.size := by
    rw [hthree]
    decide
  have hcounts := blocked_counts_released { policy := .block, limits := ⟨1, 0, 0, 0⟩ } threeFates
  exact ⟨hthree, by decide, by decide, (hcounts.2.2.2.2.1 hfew).1⟩

/-- The counter of blocked writes is not the number of writes that started to wait, not even
once no writer waits, and there may be more writers that wait than it shows. -/
theorem blocked_misses_begun :
    (¬ ∀ (s : Settings) (actions : List Action),
        let c := (Course.start s).run actions
        (begun c.past).length < UInt64.size →
          c.world.throttle.metrics.counters.blockedWrites.toNat = (begun c.past).length) ∧
      ¬ ∀ (s : Settings) (actions : List Action),
        let m := ((Course.start s).run actions).world.throttle.metrics
        m.currentWaiters ≤ m.counters.blockedWrites.toNat := by
  constructor
  · intro h
    -- the session of the only writer is lost while it waits
    have hlost := h { policy := .block, limits := ⟨1, 0, 0, 0⟩ }
      [.post .openService, .post (.openSession 0), .post (.schedule 0 16), .write 0 [7] 5,
       .post (.lose 0), .wake { now := 9 }] (by decide)
    exact absurd hlost (by decide)
  · intro h
    have hwaits := h { policy := .block, limits := ⟨1, 0, 0, 0⟩ }
      [.post .openService, .post (.openSession 0), .post (.schedule 0 16), .write 0 [7] 5]
    exact absurd hwaits (by decide)

end Course

end Backpressure.Pipeline
