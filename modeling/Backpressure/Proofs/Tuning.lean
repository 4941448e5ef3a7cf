import Backpressure.Proofs.Scenes
set_option autoImplicit false

/-!
# What a held writer depends on

The policy and the bound of a wait are read once, when a writer comes to wait. The limits
and the session are read again at every wake. So a writer that is held without a bound is
let go at the same action and with the same end in any two runs whose actions have the same
bearing on it: whatever is done to the policy, to the interval between warnings and to the
bound later, and whatever other writers do.
-/

namespace Backpressure

/-- A change touches the limits. -/
def Config.Change.setsLimits : Config.Change → Bool
  | .limit _ _ | .settings _ => true
  | .policy _ | .policyIfGiven _ | .policyNamed _ | .logInterval _ | .blockTimeout _ => false

theorem Config.Change.limits_of_setsLimits_eq_false {ch : Config.Change}
    (h : ch.setsLimits = false) (l : Figures UInt64) : ch.limits l = l := by
  cases ch with
  | limit _ _ | settings _ => cases h
  | policy _ | policyIfGiven _ | policyNamed _ | logInterval _ | blockTimeout _ => rfl

namespace Pipeline

/-- What is left of an action for a writer that is held without a bound. Writes, deadlines
and changes that leave the limits alone do not bear on it, nor does the time of a wake or the
order in which writers are woken. -/
def Action.bearing : Action → Option Action
  | .post entry => some (.post entry)
  | .configure change => if change.setsLimits then some (.configure change) else none
  | .direct stage => some (.direct stage)
  | .write _ _ _ | .expire _ _ => none
  | .wake m => some ((Action.wake m).mapMoment default)
  | .sent session payload m => some ((Action.sent session payload m).mapMoment default)
  | .exception session cause m => some ((Action.exception session cause m).mapMoment default)
  | .closed session m => some ((Action.closed session m).mapMoment default)

namespace Scene

variable {s : Scene} {x : Waiter} {a b : Action}

theorem step_of_bearing_eq_none (h : a.bearing = none) : s.step a = s := by
  cases a with
  | configure change =>
    have hkeeps : change.setsLimits = false := by simpa [Action.bearing] using h
    exact congrArg (Scene.mk · s.ledger s.stage)
      (Config.Change.limits_of_setsLimits_eq_false hkeeps s.limits)
  | write _ _ _ | expire _ _ => rfl
  | post _ | direct _ | wake _ | sent _ _ _ | exception _ _ _ | closed _ _ => cases h

theorem step_of_bearing_eq_some (h : a.bearing = some b) : s.step a = s.step b := by
  cases a with
  | configure change =>
    simp only [Action.bearing, Option.ite_none_right_eq_some] at h
    cases h.2
    rfl
  | write _ _ _ | expire _ _ => cases h
  | post _ | direct _ | wake _ | sent _ _ _ | exception _ _ _ | closed _ _ =>
    cases h
    rfl

/-- What does not bear on a writer without a bound does not let it go. -/
theorem release_of_bearing_eq_none (hd : x.deadline = none) (h : a.bearing = none) :
    s.release x a = none := by
  cases a with
  | configure _ | write _ _ _ => rfl
  | expire ticket now => simp [hd]
  | post _ | direct _ | wake _ | sent _ _ _ | exception _ _ _ | closed _ _ => cases h

theorem release_of_bearing_eq_some (hd : x.deadline = none) (h : a.bearing = some b) :
    s.release x a = s.release x b := by
  cases a with
  | configure change =>
    simp only [Action.bearing, Option.ite_none_right_eq_some] at h
    cases h.2
    rfl
  | write _ _ _ | expire _ _ => cases h
  | post _ | direct _ =>
    cases h
    rfl
  | wake m | sent _ _ m | exception _ _ m | closed _ m =>
    cases h
    simp only [Action.mapMoment, release, settle_of_deadline_eq_none hd]

/-- A wait without a bound goes by what bears on it. -/
theorem outcome_filterMap_bearing (hd : x.deadline = none) (as : List Action) :
    s.outcome x (as.filterMap Action.bearing) = s.outcome x as := by
  induction as generalizing s with
  | nil => rfl
  | cons a as ih =>
    cases hb : a.bearing with
    | none =>
      rw [List.filterMap_cons_none hb, ih, outcome, release_of_bearing_eq_none hd hb,
        step_of_bearing_eq_none hb, Option.none_or]
    | some b =>
      rw [List.filterMap_cons_some hb, outcome, outcome, ih, release_of_bearing_eq_some hd hb,
        step_of_bearing_eq_some hb]

end Scene

namespace Course

variable {c : Course} {x : Waiter}

/-- A writer is still held after some actions, and the next one lets it go; its write then
has come to an end. -/
structure LetGo (c : Course) (x : Waiter) (earlier : List Action) (a : Action) (e : Ending) :
    Prop where
  held : x ∈ (c.run earlier).world.throttle.waiting
  gone : x ∉ ((c.run earlier).step a).world.throttle.waiting
  ended : ((c.run earlier).step a).endingsOf x.ticket = [e]

/-- A writer is held, and its write has not ended. -/
structure Waits (c : Course) (x : Waiter) : Prop where
  orderly : Orderly c
  held : x ∈ c.world.throttle.waiting
  unended : c.endingsOf x.ticket = []

namespace Waits

variable (h : Waits c x)
include h

theorem waiting_run (as : List Action) :
    x ∈ (c.run as).world.throttle.waiting ↔ c.world.scene.outcome x as = none :=
  (outcome_run h.orderly h.held as).1

theorem endingsOf_run (as : List Action) :
    (c.run as).endingsOf x.ticket = (c.world.scene.outcome x as).toList := by
  rw [(outcome_run h.orderly h.held as).2, h.unended, List.nil_append]

/-- A writer that is held on still waits for the end of its write. -/
theorem run {as : List Action} (hx : x ∈ (c.run as).world.throttle.waiting) :
    Waits (c.run as) x := by
  refine ⟨h.orderly.run as, hx, ?_⟩
  rw [h.endingsOf_run, (h.waiting_run as).mp hx, Option.toList_none]

/-- Without a bound the wait is the same after actions with the same bearing. -/
theorem waiting_run_congr (hd : x.deadline = none) {as bs : List Action}
    (hb : bs.filterMap Action.bearing = as.filterMap Action.bearing) :
    x ∈ (c.run bs).world.throttle.waiting ↔ x ∈ (c.run as).world.throttle.waiting := by
  rw [h.waiting_run, h.waiting_run, ← Scene.outcome_filterMap_bearing hd bs, hb,
    Scene.outcome_filterMap_bearing hd as]

theorem endingsOf_run_congr (hd : x.deadline = none) {as bs : List Action}
    (hb : bs.filterMap Action.bearing = as.filterMap Action.bearing) :
    (c.run bs).endingsOf x.ticket = (c.run as).endingsOf x.ticket := by
  rw [h.endingsOf_run, h.endingsOf_run, ← Scene.outcome_filterMap_bearing hd bs, hb,
    Scene.outcome_filterMap_bearing hd as]

/-- An action that lets the writer go bears on it. -/
theorem bearing_of_letGo (hd : x.deadline = none) {earlier : List Action} {a : Action}
    {e : Ending} (hgo : LetGo c x earlier a e) : ∃ b, a.bearing = some b := by
  by_contra hnone
  have hb : (earlier ++ [a]).filterMap Action.bearing = earlier.filterMap Action.bearing := by
    rw [List.filterMap_append, List.filterMap_cons_none, List.filterMap_nil, List.append_nil]
    exact Option.eq_none_iff_forall_ne_some.mpr fun b hb => hnone ⟨b, hb⟩
  have hheld := (h.waiting_run_congr hd hb).mpr hgo.held
  rw [run_append] at hheld
  exact hgo.gone hheld

/-- Without a bound the writer is let go at the same action in all runs with the same
bearing on it, and with the same end. -/
theorem letGo_congr (hd : x.deadline = none) {earlier later bs : List Action} {a : Action}
    {e : Ending} (hgo : LetGo c x earlier a e)
    (hb : bs.filterMap Action.bearing = (earlier ++ a :: later).filterMap Action.bearing) :
    ∃ earlier' a' later', bs = earlier' ++ a' :: later' ∧ a'.bearing = a.bearing ∧
      earlier'.filterMap Action.bearing = earlier.filterMap Action.bearing ∧
      LetGo c x earlier' a' e := by
  obtain ⟨b, hbearing⟩ := h.bearing_of_letGo hd hgo
  rw [List.filterMap_append, List.filterMap_cons_some hbearing,
    List.filterMap_eq_append_iff] at hb
  obtain ⟨bs₁, bs₂, rfl, hbs₁, hbs₂⟩ := hb
  -- what does not bear on the writer may stand before the action that lets it go
  obtain ⟨idle, a', later', rfl, hidle, ha', -⟩ := List.filterMap_eq_cons_iff.mp hbs₂
  have hearlier : (bs₁ ++ idle).filterMap Action.bearing = earlier.filterMap Action.bearing := by
    rw [List.filterMap_append, hbs₁, List.filterMap_eq_nil_iff.mpr hidle, List.append_nil]
  have hupto : (bs₁ ++ idle ++ [a']).filterMap Action.bearing =
      (earlier ++ [a]).filterMap Action.bearing := by
    rw [List.filterMap_append, hearlier, List.filterMap_append, List.filterMap_cons_some ha',
      List.filterMap_cons_some hbearing]
  have hgone := (h.waiting_run_congr hd hupto).not
  have hended := h.endingsOf_run_congr hd hupto
  rw [run_append _ _ [a'], run_append _ _ [a]] at hgone hended
  refine ⟨bs₁ ++ idle, a', later', (List.append_assoc _ _ _).symm, ha'.trans hbearing.symm,
    hearlier, ?_, hgone.mpr hgo.gone, hended.trans hgo.ended⟩
  exact (h.waiting_run_congr hd hearlier).mpr hgo.held

/-- At a wake the writer stays held if its session is over a limit, goes on if the session
is ready, and has its wait broken off if the session cannot be read. -/
theorem step_of_atWake (hd : x.deadline = none) {a : Action} {v : World}
    (ha : c.world.atWake a = some v) :
    (x ∈ (c.step a).world.throttle.waiting ↔ v.verdict x.session = .flooded) ∧
      ((c.step a).endingsOf x.ticket =
          [.forwarded (v.stage.outcome (.write x.session x.request))] ↔
        v.verdict x.session = .ready) ∧
      ((c.step a).endingsOf x.ticket = [.lost] ↔ v.verdict x.session = .unreadable) := by
  obtain ⟨m, hm, hscene⟩ := moment_of_atWake ha
  rw [waiting_step h.orderly h.held, endingsOf_step h.orderly h.held, h.unended,
    release_of_moment hm, ← hscene, Scene.settle_of_deadline_eq_none hd]
  cases hv : v.verdict x.session with
  | ready | flooded | unreadable =>
    have hseen : v.scene.verdict x.session = _ := hv
    rw [hseen]
    simp [World.scene]

end Waits

/-- A writer that comes to a throttled session starts to wait, if the policy of that moment
holds writers; without a bound it does not give up in its first pass. -/
theorem waits_write (s : Settings) (before : List Action) (session : Nat) (payload : Payload)
    (now : Instant) :
    let c := (Course.start s).run before
    let a := c.arrival session (c.world.issue payload).1 now
    a.policy.holds = true → a.verdict = .flooded → a.bound = none →
      Waits (c.step (.write session payload now)) a.waiter := by
  intro c a hholds hflooded hbound
  have htreated : a.treatment = .waits := Arrival.treatment_eq_waits_iff.mpr ⟨hholds, hflooded⟩
  have hdeadline : a.waiter.deadline = none := Arrival.deadline_waiter hbound
  have hmeet : c.world.scene.meet a = none := by
    rw [Scene.meet, htreated]
    exact Scene.settle_of_flooded (s := c.world.scene) (x := a.waiter) hdeadline hflooded
  obtain ⟨hwaiting, hended⟩ := ending_run s before [] session payload now
  rw [hmeet, run_append] at hwaiting hended
  exact ⟨(orderly_run s before).step _, hwaiting.mpr rfl, hended⟩

/-! ## Runs -/

/-- Whoever comes to wait without a bound is let go in every run with the same bearing on it
at the same action and with the same end. Its write is never refused, and nothing but a wake
lets it go. At every wake it goes on if its session is ready under the limits that all
changes so far have made, and is held on if the session is over one of them; a session that
cannot be read breaks its wait off. -/
theorem release_depends_on_bearing (s : Settings) (before : List Action) (session : Nat)
    (payload : Payload) (now : Instant) :
    let c := (Course.start s).run before
    let a := c.arrival session (c.world.issue payload).1 now
    let held := c.step (.write session payload now)
    a.policy.holds = true → a.verdict = .flooded → a.bound = none →
      a.waiter ∈ held.world.throttle.waiting ∧
      (∀ as bs : List Action, bs.filterMap Action.bearing = as.filterMap Action.bearing →
        (a.waiter ∈ (held.run bs).world.throttle.waiting ↔
          a.waiter ∈ (held.run as).world.throttle.waiting) ∧
        (held.run bs).endingsOf a.ticket = (held.run as).endingsOf a.ticket) ∧
      (∀ earlier x later e, LetGo held a.waiter earlier x e →
        ∀ bs : List Action,
          bs.filterMap Action.bearing = (earlier ++ x :: later).filterMap Action.bearing →
          ∃ earlier' x' later', bs = earlier' ++ x' :: later' ∧ x'.bearing = x.bearing ∧
            earlier'.filterMap Action.bearing = earlier.filterMap Action.bearing ∧
            LetGo held a.waiter earlier' x' e) ∧
      (∀ as e, .refused e ∉ (held.run as).endingsOf a.ticket) ∧
      ∀ as x, a.waiter ∈ (held.run as).world.throttle.waiting →
        ((held.run as).world.atWake x = none →
          a.waiter ∈ ((held.run as).step x).world.throttle.waiting) ∧
        ∀ v, (held.run as).world.atWake x = some v →
          let changes := (before ++ as).filterMap Action.change?
          let limits := ((Config.ofSettings s).updateAll changes).limits
          let seen := Readiness.verdict limits (v.ledger.view session)
          (a.waiter ∈ ((held.run as).step x).world.throttle.waiting ↔ seen = .flooded) ∧
          (((held.run as).step x).endingsOf a.ticket =
              [.forwarded (v.stage.outcome (.write session a.request))] ↔ seen = .ready) ∧
          (((held.run as).step x).endingsOf a.ticket = [.lost] ↔ seen = .unreadable) := by
  intro c a held hholds hflooded hbound
  have hwaits : Waits held a.waiter :=
    waits_write s before session payload now hholds hflooded hbound
  have hdeadline : a.waiter.deadline = none := Arrival.deadline_waiter hbound
  have hrun : ∀ as, held.run as =
      (Course.start s).run (before ++ .write session payload now :: as) := by
    intro as
    rw [run_append, run_cons]
  refine ⟨hwaits.held, fun as bs hb => ?_, fun earlier x later e hgo bs hb => ?_,
    fun as e hrefused => ?_, fun as x hx => ⟨fun hx' => ?_, fun v hv => ?_⟩⟩
  · exact ⟨hwaits.waiting_run_congr hdeadline hb, hwaits.endingsOf_run_congr hdeadline hb⟩
  · exact hwaits.letGo_congr hdeadline hgo hb
  · obtain ⟨f, hmeets⟩ := meets_run s before as session payload now
    rw [hrun, hmeets.endingsOf] at hrefused
    exact hmeets.fits.not_refused (.inr ⟨hholds, hbound⟩) hrefused
  · exact mem_waiting_step_of_no_wake (hwaits.run hx).orderly hx' hx
      (Action.not_overdue_of_deadline_eq_none hdeadline)
  · intro changes limits seen
    have hlimits : v.throttle.config.limits = limits := by
      have hconfig : v.throttle.config = (held.run as).world.throttle.config := by
        cases x <;> cases hv <;> rfl
      rw [hconfig, hrun, config_run]
      simp only [limits, changes, List.filterMap_append]
      rfl
    have hseen : v.verdict session = seen := by
      rw [World.verdict, World.look, hlimits]
      rfl
    have hwake := (hwaits.run hx).step_of_atWake hdeadline hv
    change (_ ↔ v.verdict session = _) ∧ (_ ↔ v.verdict session = _) ∧
      (_ ↔ v.verdict session = _) at hwake
    rw [hseen] at hwake
    exact hwake

/-- A writer is held without a bound; a higher limit lets it go at the next wake, whether or
not the policy, the bound and the interval change in between and another writer comes. -/
theorem release_depends_on_bearing_relaxed :
    let before : List Action :=
      [.post .openService, .post (.openSession 0), .post (.schedule 0 10)]
    let held := ((Course.start { policy := .block, limits := ⟨1, 0, 0, 0⟩ }).run before).step
      (.write 0 [7] 5)
    let plain : List Action := [.configure (.limit .localMessages 2), .wake { now := 9 }]
    let tuned : List Action :=
      [.configure (.policy .exception), .configure (.blockTimeout (some (.ofNanos 1))),
       .configure (.policyNamed "none"), .write 0 [8] 6, .configure (.limit .localMessages 2),
       .configure (.logInterval (.ofNanos 3)), .expire 0 8, .wake { now := 9, first := [1] }]
    (⟨0, 0, ⟨1, [7]⟩, 5, none⟩ : Waiter) ∈ held.world.throttle.waiting ∧
      (held.run plain).endingsOf 0 = [.forwarded .done] ∧
      (held.run tuned).endingsOf 0 = [.forwarded .done] := by
  intro before held plain tuned
  obtain ⟨hheld, hcongr, -⟩ := release_depends_on_bearing
    { policy := .block, limits := ⟨1, 0, 0, 0⟩ } before 0 [7] 5 rfl (by decide) rfl
  have hplain : (held.run plain).endingsOf 0 = [.forwarded .done] := by decide
  have htuned : (held.run tuned).endingsOf 0 = (held.run plain).endingsOf 0 :=
    (hcongr plain tuned rfl).2
  exact ⟨hheld, hplain, htuned.trans hplain⟩

end Course

end Pipeline

end Backpressure
