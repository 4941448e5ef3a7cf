import Backpressure.Proofs.Scenes
set_option autoImplicit false

/-!
# The passes of a held writer

A held writer goes through passes until one is its last: the first at which its session is
ready or cannot be read, or the deadline has come. That pass alone says how the wait comes
out. The passes before it are useless: with more of them or fewer the wait comes out the same.

In a run the passes of a writer are what the later actions let it see of its scene. So how its
write ends, and for how long a refused write says that it waited, follow from the loop.
-/

namespace Backpressure

namespace Wait

variable {deadline : Option Instant} {s : Sight} {sights : List Sight} {n k : Nat} {p : Progress}

/-! ## The last pass -/

/-- A pass that sees this is the last one of its wait. -/
def Sight.Last (deadline : Option Instant) (s : Sight) : Prop :=
  s.verdict ≠ .flooded ∨ ∃ d, deadline = some d ∧ d ≤ s.now

/-- How a wait comes out whose last pass sees this. -/
def Sight.close (s : Sight) : Progress :=
  match s.verdict with
  | .ready => .ends .ready
  | .flooded => .ends .timedOut
  | .unreadable => .breaks

theorem Sight.close_eq_timedOut_iff : s.close = .ends .timedOut ↔ s.verdict = .flooded := by
  unfold close
  cases s.verdict <;> simp

theorem pass_eq_stays_iff_not_last :
    pass deadline s.verdict s.now = .stays ↔ ¬ s.Last deadline := by
  rw [pass_eq_stays_iff, Sight.Last, not_or, not_not]
  simp only [not_exists, not_and, Nat.not_le]

instance (deadline : Option Instant) (s : Sight) : Decidable (s.Last deadline) :=
  decidable_of_iff (pass deadline s.verdict s.now ≠ .stays)
    (by rw [ne_eq, pass_eq_stays_iff_not_last, not_not])

theorem pass_of_last (h : s.Last deadline) : pass deadline s.verdict s.now = s.close := by
  unfold Sight.close
  cases hv : s.verdict with
  | ready | unreadable => rfl
  | flooded =>
    obtain ⟨d, hd, hle⟩ := h.resolve_left fun hne => hne hv
    exact pass_eq_timedOut_iff.mpr ⟨rfl, d, hd, hle⟩

/-- The passes under a bound end when the bound is over. -/
theorem last_deadline_iff {start : Instant} {timeout : Option Duration} :
    s.Last (Wait.deadline start timeout) ↔
      s.verdict ≠ .flooded ∨ ∃ d, timeout = some d ∧ start + d.nanos ≤ s.now := by
  unfold Sight.Last Wait.deadline
  cases timeout <;> simp

theorem passes_cons_of_last (h : s.Last deadline) :
    passes deadline n (s :: sights) = some (n, s.close) := by
  have hne : s.close ≠ .stays := by
    rw [← pass_of_last h, ne_eq, pass_eq_stays_iff_not_last, not_not]
    exact h
  rw [passes, pass_of_last h]
  cases hc : s.close with
  | stays => exact absurd hc hne
  | ends e | breaks => rfl

theorem passes_cons_of_not_last (h : ¬ s.Last deadline) :
    passes deadline n (s :: sights) = passes deadline (n + 1) sights := by
  rw [passes, pass_eq_stays_iff_not_last.mpr h]

/-! ## The loop -/

theorem passes_eq_none_iff :
    passes deadline n sights = none ↔ ∀ s ∈ sights, ¬ s.Last deadline := by
  induction sights generalizing n with
  | nil => simp [passes]
  | cons s rest ih =>
    by_cases h : s.Last deadline
    · simp [passes_cons_of_last h, h]
    · simp [passes_cons_of_not_last h, ih, h]

/-- The loop comes out as its first last pass says, and gives the number of that pass. -/
theorem passes_eq_some_iff :
    passes deadline n sights = some (k, p) ↔
      ∃ i s, sights[i]? = some s ∧ s.Last deadline ∧ (∀ t ∈ sights.take i, ¬ t.Last deadline) ∧
        k = n + i ∧ p = s.close := by
  induction sights generalizing n with
  | nil => simp [passes]
  | cons s rest ih =>
    by_cases h : s.Last deadline
    · rw [passes_cons_of_last h]
      constructor
      · rintro ⟨⟩
        exact ⟨0, s, rfl, h, by simp, rfl, rfl⟩
      · rintro ⟨i, t, ht, -, huseless, rfl, rfl⟩
        cases i with
        | zero =>
          cases ht
          rfl
        | succ i => exact absurd h (huseless s (by simp))
    · rw [passes_cons_of_not_last h, ih]
      constructor
      · rintro ⟨i, t, ht, hlast, huseless, rfl, rfl⟩
        refine ⟨i + 1, t, ht, hlast, ?_, by omega, rfl⟩
        simpa [h] using huseless
      · rintro ⟨i, t, ht, hlast, huseless, rfl, rfl⟩
        cases i with
        | zero =>
          cases ht
          exact absurd hlast h
        | succ i =>
          refine ⟨i, t, ht, hlast, fun u hu => huseless u ?_, by omega, rfl⟩
          exact List.mem_cons_of_mem _ hu

/-- How the loop comes out depends on its first last pass alone. -/
theorem map_snd_passes :
    (passes deadline n sights).map Prod.snd =
      (sights.filter (·.Last deadline)).head?.map Sight.close := by
  induction sights generalizing n with
  | nil => rfl
  | cons s rest ih =>
    by_cases h : s.Last deadline
    · rw [passes_cons_of_last h, List.filter_cons_of_pos (by simpa using h)]
      rfl
    · rw [passes_cons_of_not_last h, ih, List.filter_cons_of_neg (by simpa using h)]

section Run

variable (held : Nat) {start : Instant} {timeout : Option Duration}

theorem finished_run :
    (run held start timeout sights).finished = passes (Wait.deadline start timeout) 0 sights := by
  unfold run
  split <;> simp [*]

/-- A writer is counted as long as its loop is not over, and no longer. -/
theorem held_run :
    (run held start timeout sights).held =
      if (run held start timeout sights).finished = none then held + 1 else held := by
  unfold run
  split <;> rfl

theorem finished_run_eq_none_iff :
    (run held start timeout sights).finished = none ↔
      ∀ t ∈ sights, ¬ t.Last (Wait.deadline start timeout) := by
  rw [finished_run, passes_eq_none_iff]

theorem finished_run_eq_some_iff :
    (run held start timeout sights).finished = some (k, p) ↔
      ∃ t, sights[k]? = some t ∧ t.Last (Wait.deadline start timeout) ∧
        (∀ u ∈ sights.take k, ¬ u.Last (Wait.deadline start timeout)) ∧ p = t.close := by
  rw [finished_run, passes_eq_some_iff]
  constructor
  · rintro ⟨i, t, ht, hlast, huseless, rfl, hp⟩
    rw [Nat.zero_add]
    exact ⟨t, ht, hlast, huseless, hp⟩
  · rintro ⟨t, ht, hlast, huseless, hp⟩
    exact ⟨k, t, ht, hlast, huseless, (Nat.zero_add k).symm, hp⟩

/-- A loop that is given up had a bound, and its last pass was not before it. -/
theorem bound_of_timedOut
    (h : (run held start timeout sights).finished = some (k, .ends .timedOut)) :
    ∃ d t, timeout = some d ∧ t ∈ sights ∧ start + d.nanos ≤ t.now := by
  obtain ⟨t, ht, hlast, -, hclose⟩ := (finished_run_eq_some_iff held).mp h
  have hflooded : t.verdict = .flooded := Sight.close_eq_timedOut_iff.mp hclose.symm
  obtain ⟨d, hd, hle⟩ := (last_deadline_iff.mp hlast).resolve_left fun hne => hne hflooded
  exact ⟨d, t, hd, List.mem_of_getElem? ht, hle⟩

/-- Useless passes in between make no difference. -/
theorem outcome_run_useless {early useless late : List Sight}
    (huseless : ∀ t ∈ useless, ¬ t.Last (Wait.deadline start timeout)) :
    (run held start timeout (early ++ useless ++ late)).finished.map Prod.snd =
      (run held start timeout (early ++ late)).finished.map Prod.snd := by
  have hnone : useless.filter (·.Last (Wait.deadline start timeout)) = [] :=
    List.filter_eq_nil_iff.mpr fun t ht => by simpa using huseless t ht
  rw [finished_run, finished_run, map_snd_passes, map_snd_passes, List.filter_append,
    List.filter_append, hnone, List.append_nil, List.filter_append]

/-- The number of held writers depends on how the loop comes out and not on its passes. -/
theorem held_run_congr {sights' : List Sight}
    (h : (run held start timeout sights).finished.map Prod.snd =
      (run held start timeout sights').finished.map Prod.snd) :
    (run held start timeout sights).held = (run held start timeout sights').held := by
  have hnone := congrArg (· = none) h
  simp only [Option.map_eq_none_iff] at hnone
  rw [held_run, held_run]
  simp only [hnone]

/-- Under a bound of no length the first pass is the last one. -/
theorem run_zero (h : start ≤ s.now) :
    run held start (some .zero) (s :: sights) = ⟨held, some (0, s.close)⟩ := by
  have hlast : s.Last (Wait.deadline start (some .zero)) :=
    last_deadline_iff.mpr (.inr ⟨.zero, rfl, h⟩)
  rw [run, passes_cons_of_last hlast]
  rfl

end Run

end Wait

namespace Pipeline

/-! ## What a held writer sees -/

/-- How the wait of a write came out, as its end shows; a write refused at once did not wait. -/
def Ending.waitEnd? : Ending → Option Progress
  | .forwarded _ => some (.ends .ready)
  | .refused (.timedOut _ _ _) => some (.ends .timedOut)
  | .refused (.overLimit _ _) => none
  | .lost => some .breaks

namespace Scene

/-- What a held writer sees in an action, if it goes through a pass in it. -/
def sight? (s : Scene) (x : Waiter) : Action → Option Wait.Sight
  | .wake m | .sent _ _ m | .closed _ m => some ⟨s.verdict x.session, m.turn x.ticket⟩
  | .exception _ _ m => some ⟨s.drain.verdict x.session, m.turn x.ticket⟩
  | .expire ticket now =>
    if ticket = x.ticket ∧ x.deadline.any (· ≤ now) = true then
      some ⟨s.verdict x.session, now⟩
    else none
  | .post _ | .configure _ | .direct _ | .write _ _ _ => none

/-- What a held writer sees in a sequence of actions, pass by pass. -/
def sights (s : Scene) (x : Waiter) : List Action → List Wait.Sight
  | [] => []
  | a :: as => (s.sight? x a).toList ++ (s.step a).sights x as

variable {s : Scene} {x : Waiter} {now : Instant}

/-- A pass ends the write of its writer if it is the last one, and then as what it sees says. -/
theorem settle_waitEnd :
    (s.settle x now).map Ending.waitEnd? =
      if (⟨s.verdict x.session, now⟩ : Wait.Sight).Last x.deadline then
        some (some (Wait.Sight.close ⟨s.verdict x.session, now⟩))
      else none := by
  split
  · rename_i hlast
    unfold settle
    rw [Wait.pass_of_last hlast]
    unfold Wait.Sight.close
    cases s.verdict x.session <;> rfl
  · rename_i hlast
    rw [settle_eq_none_iff.mpr (Wait.pass_eq_stays_iff_not_last.mpr hlast)]
    rfl

/-- An action lets a held writer go as what it sees in the action says. -/
theorem release_waitEnd (a : Action) :
    (s.release x a).map Ending.waitEnd? =
      ((s.sight? x a).toList.filter (·.Last x.deadline)).head?.map fun t => some t.close := by
  have hsight : ∀ (t : Scene) (now : Instant), (t.settle x now).map Ending.waitEnd? =
      ([(⟨t.verdict x.session, now⟩ : Wait.Sight)].filter (·.Last x.deadline)).head?.map
        fun t => some t.close := by
    intro t now
    rw [settle_waitEnd, List.filter_singleton]
    split <;> simp [*]
  cases a with
  | wake m | sent _ _ m | closed _ m => exact hsight s (m.turn x.ticket)
  | exception _ _ m => exact hsight s.drain (m.turn x.ticket)
  | post _ | configure _ | direct _ | write _ _ _ => rfl
  | expire ticket now =>
    rw [release_expire, sight?]
    split
    · exact hsight s now
    · rfl

/-- The wait of a held writer comes out as the first last pass says among those that the
actions bring. -/
theorem outcome_waitEnd (as : List Action) :
    (s.outcome x as).map Ending.waitEnd? =
      ((s.sights x as).filter (·.Last x.deadline)).head?.map fun t => some t.close := by
  induction as generalizing s with
  | nil => rfl
  | cons a as ih =>
    rw [outcome, sights, List.filter_append, List.head?_append, Option.map_or, Option.map_or,
      release_waitEnd, ih]

/-- What the writer of a write sees, if it waits: in the pass at its arrival and in the actions
after it. -/
def sightsOf (s : Scene) (a : Arrival) (after : List Action) : List Wait.Sight :=
  ⟨s.verdict a.session, a.now⟩ :: s.sights a.waiter after

/-- A write that makes its writer wait ends as the loop of the writer comes out. -/
theorem ending_waitEnd {a : Arrival} (ha : a.treatment = .waits) (after : List Action)
    (held : Nat) :
    ((s.meet a).or (s.outcome a.waiter after)).map Ending.waitEnd? =
      (Wait.run held a.now a.bound (s.sightsOf a after)).finished.map fun f => some f.2 := by
  have hmeet : s.meet a = s.release a.waiter (.wake { now := a.now }) := by
    rw [meet, ha]
    rfl
  have hloop : (Wait.run held a.now a.bound (s.sightsOf a after)).finished.map Prod.snd =
      ((s.sightsOf a after).filter (·.Last a.waiter.deadline)).head?.map Wait.Sight.close := by
    rw [Wait.finished_run]
    exact Wait.map_snd_passes
  have hsome := congrArg (Option.map some) hloop
  rw [Option.map_map, Option.map_map] at hsome
  refine Eq.trans ?_ hsome.symm
  change _ = (([_] ++ s.sights a.waiter after).filter _).head?.map _
  rw [hmeet, Option.map_or, release_waitEnd, outcome_waitEnd, List.filter_append,
    List.head?_append, Option.map_or]
  rfl

end Scene

/-! ## Runs -/

namespace Course

/-- A blocking loop is over at its first pass that finds the session ready or unreadable or
the deadline come, whatever the passes before it saw. It comes out as that pass says, with
readiness before a deadline; without a bound it is never given up, and under one of no length
one pass is all it takes. As long as it lasts its writer is counted, and no longer. A wait
that is given up lasted at least as long as its bound, also by a clock that was read
before the deadline was set and after the last pass.

In a run the writer of a write that is held goes through this loop, with what the later actions
let it see: it waits as long as the loop is not over, and then its write ends as the loop
comes out. A write that is refused after a wait tells at least the bound that was in force when
it came. -/
theorem loop_ends_at_last_pass :
    (∀ (held : Nat) (start : Instant) (timeout : Option Duration) (sights : List Wait.Sight),
      let loop := Wait.run held start timeout sights
      let last (t : Wait.Sight) : Prop :=
        t.verdict ≠ .flooded ∨ ∃ d, timeout = some d ∧ start + d.nanos ≤ t.now
      (∀ k p, loop.finished = some (k, p) ↔
        ∃ t, sights[k]? = some t ∧ last t ∧ (∀ u ∈ sights.take k, ¬ last u) ∧ p = t.close) ∧
      (loop.finished = none ↔ ∀ t ∈ sights, ¬ last t) ∧
      loop.held = (if loop.finished = none then held + 1 else held) ∧
      (timeout = none → ∀ k, loop.finished ≠ some (k, .ends .timedOut)) ∧
      (∀ t rest, sights = t :: rest → timeout = some .zero → start ≤ t.now →
        loop = ⟨held, some (0, t.close)⟩) ∧
      (∀ early useless late, sights = early ++ late → (∀ t ∈ useless, ¬ last t) →
        let disturbed := Wait.run held start timeout (early ++ useless ++ late)
        disturbed.finished.map Prod.snd = loop.finished.map Prod.snd ∧
          disturbed.held = loop.held) ∧
      ∀ k begun ended, begun ≤ start → (∀ t ∈ sights, t.now ≤ ended) →
        loop.finished = some (k, .ends .timedOut) →
          ∃ d, timeout = some d ∧ d.nanos ≤ (Duration.ofNanos (ended - begun)).nanos) ∧
    ∀ (s : Settings) (before after : List Action) (session : Nat) (payload : Payload)
      (now : Instant),
      let c := (Course.start s).run before
      let a := c.arrival session (c.world.issue payload).1 now
      let d := (Course.start s).run (before ++ .write session payload now :: after)
      let loop := Wait.run c.world.throttle.held now a.bound (c.world.scene.sightsOf a after)
      (a.treatment = .waits →
        (a.waiter ∈ d.world.throttle.waiting ↔ loop.finished = none) ∧
          (d.endingsOf a.ticket).map Ending.waitEnd? =
            (loop.finished.map fun f => some f.2).toList) ∧
        ∀ q waited r, .refused (.timedOut q waited r) ∈ d.endingsOf a.ticket →
          ∃ b, a.bound = some b ∧ b.nanos ≤ waited.nanos := by
  constructor
  · intro held start timeout sights loop last
    have hlast : ∀ t, last t ↔ t.Last (Wait.deadline start timeout) :=
      fun _ => Wait.last_deadline_iff.symm
    simp only [hlast]
    refine ⟨fun k p => Wait.finished_run_eq_some_iff held, Wait.finished_run_eq_none_iff held,
      Wait.held_run held, fun hnone k hfinished => ?_, ?_, ?_,
      fun k begun ended hbegun hended hfinished => ?_⟩
    · obtain ⟨d, -, hd, -⟩ := Wait.bound_of_timedOut held hfinished
      rw [hnone] at hd
      cases hd
    · rintro t rest rfl rfl hclock
      exact Wait.run_zero held hclock
    · rintro early useless late rfl huseless
      have houtcome : (Wait.run held start timeout (early ++ useless ++ late)).finished.map
          Prod.snd = (Wait.run held start timeout (early ++ late)).finished.map Prod.snd :=
        Wait.outcome_run_useless held huseless
      exact ⟨houtcome, Wait.held_run_congr held houtcome⟩
    · obtain ⟨d, t, hd, ht, hle⟩ := Wait.bound_of_timedOut held hfinished
      have hlasted : d.nanos + begun ≤ ended := by
        calc d.nanos + begun ≤ d.nanos + start := Nat.add_le_add_left hbegun _
          _ = start + d.nanos := Nat.add_comm _ _
          _ ≤ t.now := hle
          _ ≤ ended := hended t ht
      exact ⟨d, hd, Duration.le_nanos_ofNanos (Nat.le_sub_of_add_le hlasted)⟩
  · intro s before after session payload now c a d loop
    obtain ⟨f, hmeets⟩ : ∃ f, Meets a f d := meets_run s before after session payload now
    refine ⟨fun hwaits => ?_, fun q waited r hrefused => ?_⟩
    · have hending : ((c.world.scene.meet a).or (c.world.scene.outcome a.waiter after)).map
          Ending.waitEnd? = loop.finished.map fun f => some f.2 :=
        Scene.ending_waitEnd hwaits after _
      obtain ⟨hheld, hends⟩ := ending_run s before after session payload now
      constructor
      · rw [hheld, ← Option.map_eq_none_iff, hending, Option.map_eq_none_iff]
      · rw [hends, ← Option.toList_map, hending]
    · have hgaveUp : f = .gaveUp waited r := by
        have hf : .refused (.timedOut q waited r) ∈ f.endings a := hmeets.endingsOf ▸ hrefused
        cases f <;> simp at hf ⊢
        exact ⟨hf.2.1.symm, hf.2.2.symm⟩
      exact hmeets.fits.waited hgaveUp

/-- A write is held under a bound of a hundred nanoseconds, woken twice in vain, and given up
when its bound is over; then its session drains. -/
def holdBounded : List Action :=
  [.wake { now := 50 }, .post (.schedule 0 1), .sent 0 [] { now := 60 }, .expire 0 90,
   .expire 0 120, .post (.complete 0 11), .post (.complete 0 0), .wake { now := 130 }]

/-- The wait is over at its fourth pass, and the refused write tells of a hundred and ten
nanoseconds. A pass in vain before the others makes no difference; without a length the bound
would be over at the first pass. -/
theorem loop_ends_at_last_pass_bounded :
    let s : Settings :=
      { policy := .block, limits := ⟨1, 0, 0, 0⟩, blockTimeout := some (.ofNanos 100) }
    let before : List Action :=
      [.post .openService, .post (.openSession 0), .post (.schedule 0 10)]
    let c := (Course.start s).run before
    let d := (Course.start s).run (before ++ .write 0 [7] 10 :: holdBounded)
    let sights := c.world.scene.sightsOf (c.arrival 0 ⟨1, [7]⟩ 10) holdBounded
    let loop := Wait.run 0 10 s.blockTimeout sights
    sights = [⟨.flooded, 10⟩, ⟨.flooded, 50⟩, ⟨.flooded, 60⟩, ⟨.flooded, 120⟩, ⟨.ready, 130⟩] ∧
      loop = ⟨0, some (3, .ends .timedOut)⟩ ∧
      (d.endingsOf 0).map Ending.waitEnd? = [some (.ends .timedOut)] ∧
      (Wait.run 0 10 s.blockTimeout (⟨.flooded, 11⟩ :: sights)).held = 0 ∧
      Wait.run 0 10 (some .zero) sights = ⟨0, some (0, .ends .timedOut)⟩ ∧
      (∃ b, s.blockTimeout = some b ∧ b.nanos ≤ (Duration.ofNanos (121 - 9)).nanos) ∧
      ∃ b, s.blockTimeout = some b ∧ b.nanos ≤ (Duration.ofNanos 110).nanos := by
  intro s before c d sights loop
  obtain ⟨hloop, hrun⟩ := loop_ends_at_last_pass
  have hsights : sights = [⟨.flooded, 10⟩, ⟨.flooded, 50⟩, ⟨.flooded, 60⟩, ⟨.flooded, 120⟩,
      ⟨.ready, 130⟩] := by decide
  have hfinished : loop = ⟨0, some (3, .ends .timedOut)⟩ := by decide
  obtain ⟨-, -, -, -, -, huseless, -⟩ := hloop 0 10 s.blockTimeout sights
  obtain ⟨-, -, -, -, hzero, -, -⟩ := hloop 0 10 (some .zero) sights
  obtain ⟨-, -, -, -, -, -, hlasted⟩ := hloop 0 10 s.blockTimeout (sights.take 4)
  obtain ⟨hwaits, hrefused⟩ := hrun s before holdBounded 0 [7] 10
  have hdisturbed := huseless [] [⟨.flooded, 11⟩] sights rfl (by simp [s, Duration.ofNanos])
  refine ⟨hsights, hfinished, ?_, ?_, ?_, ?_, ?_⟩
  · exact (hwaits (by decide)).2
  · exact hdisturbed.2.trans (congrArg Wait.Loop.held hfinished)
  · exact hzero _ _ hsights rfl (by decide)
  · exact hlasted 3 9 121 (by decide) (by decide) (by decide)
  · exact hrefused ⟨1, [7]⟩ (.ofNanos 110) ("Write requests flooded - local: 2 / 1 msgs, " ++
      "11 / unlimited bytes, global: 2 / unlimited msgs, 11 / unlimited bytes") (by decide)

end Course

end Pipeline

end Backpressure
