import Backpressure.Proofs.Endings
import Backpressure.Proofs.Wakeups
set_option autoImplicit false

/-!
# The scene of a wait

A held writer looks at the limits and at its session in the ledger, and asks the next stage
when it goes on. These three are the `Scene` of its wait. A scene moves with the actions alone:
no write and no pass changes it. So the whole wait of a writer can be read off the scene in
which it starts and the actions that follow, without any other writer: `Scene.outcome` does
so, and every course of a run agrees with it.
-/

namespace Backpressure

/-! ## Limits -/

namespace Config

/-- The limits after a change. -/
def Change.limits (l : Figures UInt64) : Change → Figures UInt64
  | .limit d value => l.set d (storedLimit value)
  | .settings s => s.limits.map storedLimit
  | .policy _ | .policyIfGiven _ | .policyNamed _ | .logInterval _ | .blockTimeout _ => l

/-- What a change makes of the limits depends on nothing but the limits. -/
theorem limits_update (c : Config) (ch : Change) : (c.update ch).limits = ch.limits c.limits := by
  cases ch with
  | policyIfGiven p => cases p <;> rfl
  | policyNamed text =>
    unfold update
    simp only [change]
    cases Policy.parse text <;> rfl
  | policy _ | limit _ _ | logInterval _ | blockTimeout _ | settings _ => rfl

end Config

namespace Pipeline

/-! ## Scenes -/

/-- What a wait depends on. -/
structure Scene where
  limits : Figures UInt64
  ledger : Ledger
  stage : Stage
  deriving DecidableEq, Repr

/-- The scene of the waits in a world. -/
def World.scene (w : World) : Scene := ⟨w.throttle.config.limits, w.ledger, w.stage⟩

theorem World.scene_eq_of_ground {v w : World} (h : v.ground = w.ground) : v.scene = w.scene := by
  change v.ground.scene = w.ground.scene
  rw [h]

/-- The moment at which an action wakes the held writers, if it does. -/
def Action.moment? : Action → Option Moment
  | .wake m | .sent _ _ m | .exception _ _ m | .closed _ m => some m
  | .post _ | .configure _ | .direct _ | .write _ _ _ | .expire _ _ => none

/-- The action at another moment, if it wakes. -/
def Action.mapMoment (f : Moment → Moment) : Action → Action
  | .wake m => .wake (f m)
  | .sent session payload m => .sent session payload (f m)
  | .exception session cause m => .exception session cause (f m)
  | .closed session m => .closed session (f m)
  | .post entry => .post entry
  | .configure change => .configure change
  | .direct stage => .direct stage
  | .write session payload now => .write session payload now
  | .expire ticket now => .expire ticket now

theorem World.config_eq_of_ground {v w : World} (h : v.ground = w.ground) :
    v.throttle.config = w.throttle.config := by
  change v.ground.throttle.config = w.ground.throttle.config
  rw [h]

/-- What an action does apart from the writes that come or go. -/
def World.act (w : World) : Action → World
  | .post entry => { w with ledger := w.ledger.post entry }
  | .configure change =>
    { w with throttle := { w.throttle with config := w.throttle.config.update change } }
  | .direct stage => { w with stage := stage }
  | .write _ payload _ => { (w.issue payload).2 with arrivals := w.arrivals + 1 }
  | .sent _ payload _ => (w.issue payload).2
  | .exception _ cause _ => (w.raise cause).2.drain
  | .expire _ _ | .wake _ | .closed _ _ => w

/-- The change of configuration that an action asks for, if it does. -/
def Action.change? : Action → Option Config.Change
  | .configure change => some change
  | .post _ | .direct _ | .write _ _ _ | .expire _ _ | .wake _ | .sent _ _ _ | .exception _ _ _
  | .closed _ _ => none

/-- An action is a write. -/
def Action.isWrite : Action → Bool
  | .write _ _ _ => true
  | .post _ | .configure _ | .direct _ | .expire _ _ | .wake _ | .sent _ _ _ | .exception _ _ _
  | .closed _ _ => false

namespace Scene

variable (s : Scene) (x : Waiter)

/-- One look at a session. -/
def look (session : Nat) : Look := Readiness.examine s.limits (s.ledger.view session)

/-- What a look at a session shows. -/
def verdict (session : Nat) : Verdict := (s.look session).verdict

/-- The report on a session. -/
def report (session : Nat) : String := Flood.report (s.ledger.view session).figures s.limits

/-- The next stage is told of an error and completes its writes. -/
def drain : Scene where
  limits := s.limits
  ledger := s.stage.drains.foldl (fun l d => l.complete d.session d.bytes) s.ledger
  stage := { s.stage with drains := [] }

/-- The scene after an action. -/
def step : Action → Scene
  | .post entry => { s with ledger := s.ledger.post entry }
  | .configure change => { s with limits := change.limits s.limits }
  | .direct stage => { s with stage := stage }
  | .exception _ _ _ => s.drain
  | .write _ _ _ | .expire _ _ | .wake _ | .sent _ _ _ | .closed _ _ => s

/-- The scene after several actions. -/
def run (as : List Action) : Scene := as.foldl step s

@[simp] theorem run_cons (a : Action) (as : List Action) :
    s.run (a :: as) = (s.step a).run as := rfl

/-- The end that a pass of a writer brings to its write, if its wait is over. -/
def settle (now : Instant) : Option Ending :=
  match Wait.pass x.deadline (s.verdict x.session) now with
  | .stays => none
  | .ends .ready => some (.forwarded (s.stage.outcome (.write x.session x.request)))
  | .ends .timedOut =>
    some (.refused
      (.timedOut x.request (Duration.ofNanos (now - x.start)) (s.report x.session)))
  | .breaks => some .lost

/-- The end that a new write comes to at once, if it does. -/
def meet (a : Arrival) : Option Ending :=
  match a.treatment with
  | .passes => some (.forwarded (s.stage.outcome (.write a.session a.request)))
  | .bounces => some (.refused (.overLimit a.request (s.report a.session)))
  | .crashes => some .lost
  | .waits => s.settle a.waiter a.now

/-- What happens in a pass of a writer, in order. -/
def trail (now : Instant) : List Happening :=
  let waited := Duration.ofNanos (now - x.start)
  .looked x.ticket x.session (s.look x.session) ::
    match Wait.pass x.deadline (s.verdict x.session) now with
    | .stays => []
    | .ends .ready =>
      [.left x.ticket (some .ready), .recorded (.blocked waited),
       .traced x.ticket (.released (s.ledger.idOf x.session) waited .ready),
       .forwarded (some x.ticket) (.write x.session x.request),
       .ended x.ticket (.forwarded (s.stage.outcome (.write x.session x.request)))]
    | .ends .timedOut =>
      [.left x.ticket (some .timedOut), .recorded (.blocked waited),
       .traced x.ticket (.released (s.ledger.idOf x.session) waited .timedOut),
       .recorded .timedOut,
       .ended x.ticket (.refused (.timedOut x.request waited (s.report x.session)))]
    | .breaks => [.left x.ticket none, .ended x.ticket .lost]

/-- The end that an action brings to the write of a held writer, if its wait is over then. -/
def release : Action → Option Ending
  | .wake m | .sent _ _ m | .closed _ m => s.settle x (m.turn x.ticket)
  | .exception _ _ m => s.drain.settle x (m.turn x.ticket)
  | .expire ticket now =>
    if ticket = x.ticket ∧ x.deadline.any (· ≤ now) = true then s.settle x now else none
  | .post _ | .configure _ | .direct _ | .write _ _ _ => none

/-- The end that a sequence of actions brings to the write of a held writer, if its wait is
over after them. -/
def outcome (s : Scene) (x : Waiter) : List Action → Option Ending
  | [] => none
  | a :: as => (s.release x a).or ((s.step a).outcome x as)

@[simp] theorem release_expire (s : Scene) (x : Waiter) (ticket : Nat) (now : Instant) :
    s.release x (.expire ticket now) =
      if ticket = x.ticket ∧ x.deadline.any (· ≤ now) = true then s.settle x now else none := rfl

theorem settle_eq_none_iff {s : Scene} {x : Waiter} {now : Instant} :
    s.settle x now = none ↔ Wait.pass x.deadline (s.verdict x.session) now = .stays := by
  unfold settle
  split <;> simp [*]

theorem settle_of_ready {s : Scene} {x : Waiter} {now : Instant}
    (h : s.verdict x.session = .ready) :
    s.settle x now = some (.forwarded (s.stage.outcome (.write x.session x.request))) := by
  rw [settle, h]
  rfl

theorem settle_of_unreadable {s : Scene} {x : Waiter} {now : Instant}
    (h : s.verdict x.session = .unreadable) : s.settle x now = some .lost := by
  rw [settle, h]
  rfl

theorem settle_of_flooded {s : Scene} {x : Waiter} {now : Instant} (hd : x.deadline = none)
    (h : s.verdict x.session = .flooded) : s.settle x now = none := by
  rw [settle, h, hd]
  rfl

/-- Without a bound on its wait the time does not matter to a writer. -/
theorem settle_of_deadline_eq_none {s : Scene} {x : Waiter} (h : x.deadline = none)
    (now : Instant) :
    s.settle x now =
      match s.verdict x.session with
      | .ready => some (.forwarded (s.stage.outcome (.write x.session x.request)))
      | .flooded => none
      | .unreadable => some .lost := by
  unfold settle
  rw [h]
  cases s.verdict x.session <;> rfl

end Scene

namespace Course

variable {c c' : Course} {w x : Waiter} {ticket session : Nat} {request : Request} {now : Instant}

/-- What an action does to the ground is the same whatever writes there are. -/
theorem ground_step (a : Action) : (c.step a).world.ground = (c.world.act a).ground := by
  cases a with
  | post _ | configure _ | direct _ => rfl
  | write session payload now => exact ground_write (c := c.issuing payload) session _ now
  | expire ticket now => exact ground_expire ticket now
  | wake m => exact ground_wake m
  | sent session payload m => exact ground_wake (c := c.issuing payload) m
  | exception session cause m => exact ground_wake (c := c.alarmed session cause) m
  | closed session m => exact ground_wake m

theorem scene_step (a : Action) : (c.step a).world.scene = c.world.scene.step a := by
  rw [World.scene_eq_of_ground (ground_step a)]
  cases a with
  | configure change =>
    exact congrArg (Scene.mk · c.world.ledger c.world.stage)
      (Config.limits_update c.world.throttle.config change)
  | post _ | direct _ | write _ _ _ | expire _ _ | wake _ | sent _ _ _ | exception _ _ _
  | closed _ _ => rfl

theorem scene_run (as : List Action) : (c.run as).world.scene = c.world.scene.run as := by
  induction as generalizing c with
  | nil => rfl
  | cons a as ih => rw [run_cons, ih, scene_step, Scene.run_cons]

/-- Each write gets a ticket, and no other action does. -/
theorem arrivals_step (a : Action) :
    (c.step a).world.arrivals = c.world.arrivals + if a.isWrite then 1 else 0 := by
  have hground := congrArg World.arrivals (ground_step (c := c) a)
  have harrivals : (c.step a).world.arrivals = (c.world.act a).arrivals := hground
  rw [harrivals]
  cases a <;> rfl

theorem arrivals_run (as : List Action) :
    (c.run as).world.arrivals = c.world.arrivals + as.countP Action.isWrite := by
  induction as generalizing c with
  | nil => rfl
  | cons a as ih =>
    rw [run_cons, ih, arrivals_step, List.countP_cons]
    omega

theorem config_step (a : Action) :
    (c.step a).world.throttle.config = c.world.throttle.config.updateAll a.change?.toList := by
  rw [World.config_eq_of_ground (ground_step a)]
  cases a <;> rfl

/-- The configuration of a course is the one that the changes make. -/
theorem config_run (as : List Action) :
    (c.run as).world.throttle.config =
      c.world.throttle.config.updateAll (as.filterMap Action.change?) := by
  induction as generalizing c with
  | nil => rfl
  | cons a as ih =>
    rw [run_cons, ih, config_step]
    cases a <;> rfl

/-! ## Actions that wake -/

/-- The course in which an action wakes the held writers, if it does. -/
def beforeWake (c : Course) : Action → Course
  | .sent _ payload _ => c.issuing payload
  | .exception session cause _ => c.alarmed session cause
  | .post _ | .configure _ | .direct _ | .write _ _ _ | .expire _ _ | .wake _ | .closed _ _ => c

/-- What happens in an action after its wake, latest first. -/
def afterWake (c : Course) : Action → List Happening
  | .sent session payload _ =>
    let call := Call.sent session (c.world.issue payload).1
    [.answered (c.world.stage.outcome call), .forwarded none call]
  | .exception session cause _ =>
    [.answered (c.world.stage.outcome (.exception session (c.world.raise cause).1))]
  | .closed session _ =>
    let call := Call.closed session
    [.answered (c.world.stage.outcome call), .forwarded none call]
  | .post _ | .configure _ | .direct _ | .write _ _ _ | .expire _ _ | .wake _ => []

/-- An action that wakes does nothing to the held writers but wake them. -/
theorem step_of_moment {a : Action} {m : Moment} (ha : a.moment? = some m) :
    c.step a =
      { world := ((c.beforeWake a).wake m).world
        past := c.afterWake a ++ ((c.beforeWake a).wake m).past } := by
  cases a <;> cases ha <;> rfl

theorem release_of_moment {a : Action} {m : Moment} (ha : a.moment? = some m) :
    c.world.scene.release x a =
      (c.beforeWake a).world.scene.settle x (m.turn x.ticket) := by
  cases a <;> cases ha <;> rfl

/-- An action wakes in the scene that `World.atWake` tells. -/
theorem moment_of_atWake {a : Action} {v : World} (ha : c.world.atWake a = some v) :
    ∃ m, a.moment? = some m ∧ v.scene = (c.beforeWake a).world.scene := by
  cases a with
  | post _ | configure _ | direct _ | write _ _ _ | expire _ _ => cases ha
  | wake m | sent _ _ m | exception _ _ m | closed _ m =>
    cases ha
    exact ⟨m, rfl, rfl⟩

theorem atWake_of_moment {a : Action} {m : Moment} {w : World} (ha : a.moment? = some m) :
    ∃ v, w.atWake a = some v := by
  cases a <;> cases ha <;> exact ⟨_, rfl⟩

theorem waiting_beforeWake (a : Action) :
    (c.beforeWake a).world.throttle.waiting = c.world.throttle.waiting := by
  cases a <;> rfl

theorem Orderly.beforeWake (h : Orderly c) (a : Action) : Orderly (c.beforeWake a) := by
  cases a with
  | sent _ payload _ => exact h.issuing payload
  | exception session cause _ => exact h.alarmed session cause
  | post _ | configure _ | direct _ | write _ _ _ | expire _ _ | wake _ | closed _ _ => exact h

theorem keeps_iff_settle : c.world.keeps x now = true ↔ c.world.scene.settle x now = none := by
  rw [Scene.settle_eq_none_iff, World.keeps, decide_eq_true_iff]
  rfl

/-! ## Passes -/

/-- What has happened after a pass is what happened before and the trail of the pass. -/
theorem happened_pass (c : Course) (w : Waiter) (now : Instant) :
    (c.pass w now).happened = c.happened ++ c.world.scene.trail w now := by
  have hseen : c.world.scene.verdict w.session = (c.world.look w.session).verdict := rfl
  unfold pass Scene.trail
  dsimp only
  rw [hseen]
  cases Wait.pass w.deadline (c.world.look w.session).verdict now with
  | stays => exact List.reverse_cons
  | ends e =>
    cases e with
    | ready | timedOut =>
      simp [happened, releaseTrail]
      exact ⟨rfl, rfl, rfl⟩
  | breaks =>
    simp [happened]
    rfl

theorem happened_passAll (ws : List Waiter) (turn : Nat → Instant) :
    (c.passAll ws turn).happened =
      c.happened ++ ws.flatMap fun x => c.world.scene.trail x (turn x.ticket) := by
  induction ws generalizing c with
  | nil => simp
  | cons w ws ih =>
    have hp := passed_pass c w (turn w.ticket)
    rw [passAll_cons, ih, World.scene_eq_of_ground hp.ground, happened_pass, List.flatMap_cons,
      List.append_assoc]

/-! ## Ends of waits -/

theorem endings_pass (c : Course) (w : Waiter) (now : Instant) :
    (c.pass w now).endings =
      c.endings ++ ((c.world.scene.settle w now).map (w.ticket, ·)).toList := by
  rw [endings, happened_pass, List.filterMap_append]
  unfold Scene.trail Scene.settle
  split <;> rfl

theorem endingsOf_pass_self (c : Course) (w : Waiter) (now : Instant) :
    (c.pass w now).endingsOf w.ticket =
      c.endingsOf w.ticket ++ (c.world.scene.settle w now).toList := by
  rw [endingsOf, endings_pass, List.filter_append, List.map_append]
  cases c.world.scene.settle w now <;> simp [endingsOf]

theorem endingsOf_congr (h : c'.story ticket = c.story ticket) :
    c'.endingsOf ticket = c.endingsOf ticket := by
  rw [endingsOf_eq, h, ← endingsOf_eq]

theorem Passed.endingsOf_of_ne (h : Passed c w now c') (ht : w.ticket ≠ ticket) :
    c'.endingsOf ticket = c.endingsOf ticket := endingsOf_congr (h.story_of_ne ht)

theorem Written.endingsOf_of_ne (h : Written c session request now c')
    (ht : c.world.arrivals ≠ ticket) : c'.endingsOf ticket = c.endingsOf ticket :=
  endingsOf_congr (h.story_of_ne ht)

/-- Passes of others bring no end to a write. -/
theorem endingsOf_passAll_of_ne (ws : List Waiter) (turn : Nat → Instant)
    (hne : ∀ w ∈ ws, w.ticket ≠ ticket) :
    (c.passAll ws turn).endingsOf ticket = c.endingsOf ticket := by
  induction ws generalizing c with
  | nil => rfl
  | cons w ws ih =>
    rw [passAll_cons, ih fun v hv => hne v (List.mem_cons_of_mem _ hv)]
    exact (passed_pass c w _).endingsOf_of_ne (hne w List.mem_cons_self)

/-- Among several passes the one of a writer brings to its write the end that it would have
brought alone. -/
theorem endingsOf_passAll (ws : List Waiter) (turn : Nat → Instant)
    (hd : (ws.map Waiter.ticket).Nodup) (hx : x ∈ ws) :
    (c.passAll ws turn).endingsOf x.ticket =
      c.endingsOf x.ticket ++ (c.world.scene.settle x (turn x.ticket)).toList := by
  induction ws generalizing c with
  | nil => exact absurd hx List.not_mem_nil
  | cons w ws ih =>
    have hp := passed_pass c w (turn w.ticket)
    rw [List.map_cons, List.nodup_cons] at hd
    rw [passAll_cons]
    rcases List.mem_cons.mp hx with rfl | hx
    · have hne : ∀ v ∈ ws, v.ticket ≠ x.ticket := by
        intro v hv he
        exact hd.1 (he ▸ List.mem_map_of_mem hv)
      rw [endingsOf_passAll_of_ne ws turn hne, endingsOf_pass_self]
    · have hne : w.ticket ≠ x.ticket := by
        intro he
        exact hd.1 (he ▸ List.mem_map_of_mem hx)
      rw [ih hd.2 hx, hp.endingsOf_of_ne hne, World.scene_eq_of_ground hp.ground]

theorem endingsOf_wake (h : Orderly c) (hx : x ∈ c.world.throttle.waiting) (m : Moment) :
    (c.wake m).endingsOf x.ticket =
      c.endingsOf x.ticket ++ (c.world.scene.settle x (m.turn x.ticket)).toList := by
  have hperm := perm_arrange m.first c.world.throttle.waiting
  have hheld : c.world.throttle.held ≠ 0 := by
    rw [h.counted]
    exact Nat.ne_of_gt (List.length_pos_of_mem hx)
  have hd : ((arrange m.first c.world.throttle.waiting).map Waiter.ticket).Nodup :=
    (hperm.map _).nodup_iff.mpr h.nodup_tickets
  have hcounted : (c.record .wakeup).endingsOf x.ticket = c.endingsOf x.ticket :=
    endingsOf_congr rfl
  rw [wake, if_neg hheld, endingsOf_passAll _ _ hd (hperm.mem_iff.mpr hx), hcounted]
  rfl

/-- A write brings no end to an earlier one. -/
theorem endingsOf_write_of_ne (ht : c.world.arrivals ≠ ticket) :
    (c.write session request now).endingsOf ticket = c.endingsOf ticket := by
  rcases written_write c session request now with hw | ⟨d, hw, -, heq⟩
  · exact hw.endingsOf_of_ne ht
  · rw [heq, ← hw.endingsOf_of_ne ht]
    exact (passed_pass d _ now).endingsOf_of_ne ht

/-- When a deadline may have come, the writer with a ticket goes through a pass if it has. -/
theorem expire_cases (h : Orderly c) (ticket : Nat) (now : Instant) :
    (∃ w ∈ c.world.throttle.waiting, w.ticket = ticket ∧ w.deadline.any (· ≤ now) = true ∧
        c.expire ticket now = c.pass w now) ∨
      (c.expire ticket now = c ∧ ∀ w ∈ c.world.throttle.waiting,
        ¬ (ticket = w.ticket ∧ w.deadline.any (· ≤ now) = true)) := by
  unfold expire
  split
  · rename_i hnone
    refine .inr ⟨rfl, fun w hw hc => ?_⟩
    exact absurd (List.find?_eq_none.mp hnone w hw) (by simp [hc.1])
  · rename_i w hsome
    have hw := List.mem_of_find?_eq_some hsome
    have hfound := List.find?_some hsome
    have ht : w.ticket = ticket := beq_iff_eq.mp hfound
    split
    · rename_i hdue
      exact .inl ⟨w, hw, ht, hdue, rfl⟩
    · rename_i hdue
      refine .inr ⟨rfl, fun v hv hc => hdue ?_⟩
      rw [h.eq_of_ticket_eq hw hv (ht.trans hc.1)]
      exact hc.2

theorem endingsOf_expire (h : Orderly c) (hx : x ∈ c.world.throttle.waiting) (ticket : Nat)
    (now : Instant) :
    (c.expire ticket now).endingsOf x.ticket =
      c.endingsOf x.ticket ++ (c.world.scene.release x (.expire ticket now)).toList := by
  rw [Scene.release_expire]
  rcases expire_cases h ticket now with ⟨w, hw, rfl, hdue, heq⟩ | ⟨heq, hnot⟩
  · rw [heq]
    have hp := passed_pass c w now
    by_cases he : w.ticket = x.ticket
    · obtain rfl : w = x := h.eq_of_ticket_eq hw hx he
      rw [if_pos ⟨he, hdue⟩, endingsOf_pass_self]
    · rw [if_neg fun hc => he hc.1, hp.endingsOf_of_ne he]
      exact (List.append_nil _).symm
  · rw [heq, if_neg (hnot x hx)]
    exact (List.append_nil _).symm

/-- Around a wake an action brings no end to a write. -/
theorem endingsOf_step_of_moment {a : Action} {m : Moment} (ha : a.moment? = some m) :
    (c.step a).endingsOf ticket = ((c.beforeWake a).wake m).endingsOf ticket := by
  refine endingsOf_congr ?_
  rw [step_of_moment ha]
  cases a <;> rfl

theorem endingsOf_beforeWake (a : Action) :
    (c.beforeWake a).endingsOf ticket = c.endingsOf ticket := by
  refine endingsOf_congr ?_
  cases a <;> rfl

/-! ## What an action brings to a held writer -/

theorem endingsOf_step (h : Orderly c) (hx : x ∈ c.world.throttle.waiting) (a : Action) :
    (c.step a).endingsOf x.ticket =
      c.endingsOf x.ticket ++ (c.world.scene.release x a).toList := by
  cases ha : a.moment? with
  | some m =>
    have hx' : x ∈ (c.beforeWake a).world.throttle.waiting := by
      rw [waiting_beforeWake]
      exact hx
    rw [endingsOf_step_of_moment ha, endingsOf_wake (h.beforeWake a) hx', endingsOf_beforeWake,
      release_of_moment ha]
  | none =>
    cases a with
    | wake _ | sent _ _ _ | exception _ _ _ | closed _ _ => cases ha
    | post _ | configure _ | direct _ => exact (List.append_nil _).symm
    | write session payload now =>
      have hgiven := Nat.ne_of_gt (h.given x hx)
      have hwrite : (c.step (.write session payload now)).endingsOf x.ticket =
          c.endingsOf x.ticket := endingsOf_write_of_ne (c := c.issuing payload) hgiven
      rw [hwrite]
      exact (List.append_nil _).symm
    | expire ticket now =>
      have hexpire := endingsOf_expire h hx ticket now
      exact hexpire

theorem waiting_step (h : Orderly c) (hx : x ∈ c.world.throttle.waiting) (a : Action) :
    x ∈ (c.step a).world.throttle.waiting ↔ c.world.scene.release x a = none := by
  cases ha : a.moment? with
  | some m =>
    rw [step_of_moment ha, release_of_moment ha, ← keeps_iff_settle]
    change x ∈ ((c.beforeWake a).wake m).world.throttle.waiting ↔ _
    rw [waiting_wake (h.beforeWake a), waiting_beforeWake, List.mem_filter, and_iff_right hx]
  | none =>
    cases a with
    | wake _ | sent _ _ _ | exception _ _ _ | closed _ _ => cases ha
    | post _ | configure _ | direct _ => exact iff_of_true hx rfl
    | write session payload now =>
      exact iff_of_true (mem_waiting_write (h.issuing payload) hx) rfl
    | expire ticket now =>
      change x ∈ (c.expire ticket now).world.throttle.waiting ↔ _
      rw [Scene.release_expire]
      rcases expire_cases h ticket now with ⟨w, hw, rfl, hdue, heq⟩ | ⟨heq, hnot⟩
      · have hp := passed_pass c w now
        rw [heq]
        by_cases he : w.ticket = x.ticket
        · obtain rfl : w = x := h.eq_of_ticket_eq hw hx he
          rw [if_pos ⟨he, hdue⟩, hp.waiting, ← keeps_iff_settle]
          split <;> simp [*]
        · rw [if_neg fun hc => he hc.1]
          exact iff_of_true (hp.mem_waiting hx (Ne.symm he)) rfl
      · rw [heq, if_neg (hnot x hx)]
        exact iff_of_true hx rfl

/-! ## What has ended stays ended -/

/-- No writer starts to wait in a pass. -/
theorem Passed.waiting_subset (h : Passed c w now c') :
    c'.world.throttle.waiting ⊆ c.world.throttle.waiting := by
  rw [h.waiting]
  split
  · exact List.Subset.refl _
  · exact List.filter_subset_self _

/-- Only a new write starts to wait. -/
theorem Move.mem_waiting (hm : Move c c') (hw : w ∈ c'.world.throttle.waiting) :
    w ∈ c.world.throttle.waiting ∨ w.ticket = c.world.arrivals := by
  cases hm with
  | surround _ _ _ _ | wakeup _ | call _ | answer _ => exact .inl hw
  | write h =>
    rcases h.throttle with ⟨-, hwaiting⟩ | ⟨-, hwaiting⟩
    · exact .inl (hwaiting ▸ hw)
    · rw [hwaiting, List.mem_append, List.mem_singleton] at hw
      exact hw.imp_right (congrArg Waiter.ticket)
  | pass _ hp => exact .inl (hp.waiting_subset hw)

theorem Move.arrivals_le (hm : Move c c') : c.world.arrivals ≤ c'.world.arrivals := by
  cases hm with
  | surround _ _ _ _ | wakeup _ | call _ | answer _ => exact Nat.le_refl _
  | write h => exact h.arrivals ▸ Nat.le_succ _
  | pass _ hp => exact Nat.le_of_eq hp.arrivals.symm

/-- A course comes after another one: no writer waits in it but those that did and later
ones. -/
structure Since (c d : Course) : Prop where
  arrivals : c.world.arrivals ≤ d.world.arrivals
  waiting : ∀ w ∈ d.world.throttle.waiting,
    w ∈ c.world.throttle.waiting ∨ c.world.arrivals ≤ w.ticket

theorem Since.move {d d' : Course} (_ : Orderly d) (h : Since c d) (hm : Move d d') :
    Since c d' := by
  refine ⟨Nat.le_trans h.arrivals hm.arrivals_le, fun w hw => ?_⟩
  rcases hm.mem_waiting hw with hw | hw
  · exact h.waiting w hw
  · exact .inr (hw ▸ h.arrivals)

theorem since_step (h : Orderly c) (a : Action) : Since c (c.step a) :=
  invariant_moves Since.move h ⟨Nat.le_refl _, fun _ => .inl⟩ (moves_step h a)

/-- A write has come, is not held, and has ended in some way or not at all. -/
structure Over (ticket : Nat) (ends : List Ending) (c : Course) : Prop where
  given : ticket < c.world.arrivals
  free : ∀ w ∈ c.world.throttle.waiting, w.ticket ≠ ticket
  ended : c.endingsOf ticket = ends

theorem Over.move {ends : List Ending} (_ : Orderly c) (h : Over ticket ends c) (hm : Move c c') :
    Over ticket ends c' := by
  refine ⟨Nat.lt_of_lt_of_le h.given hm.arrivals_le, fun w hw => ?_, ?_⟩
  · rcases hm.mem_waiting hw with hw | hw
    · exact h.free w hw
    · exact hw ▸ Nat.ne_of_gt h.given
  · cases hm with
    | surround _ _ _ _ => exact h.ended
    | wakeup _ | call _ | answer _ =>
      refine (endingsOf_congr (c := c) ?_).trans h.ended
      rfl
    | write hw => exact (hw.endingsOf_of_ne (Nat.ne_of_gt h.given)).trans h.ended
    | pass hw hp => exact (hp.endingsOf_of_ne (h.free _ hw)).trans h.ended

/-- The write of a writer that an action lets go is over with it. -/
theorem over_of_release (h : Orderly c) (hx : x ∈ c.world.throttle.waiting) {a : Action}
    {e : Ending} (hrelease : c.world.scene.release x a = some e) :
    Over x.ticket (c.endingsOf x.ticket ++ [e]) (c.step a) := by
  have hsince := since_step h a
  have hgiven := h.given x hx
  refine ⟨Nat.lt_of_lt_of_le hgiven hsince.arrivals, fun w hw he => ?_, ?_⟩
  · rcases hsince.waiting w hw with hmem | hlater
    · obtain rfl : w = x := h.eq_of_ticket_eq hmem hx he
      rw [waiting_step h hx a, hrelease] at hw
      cases hw
    · exact absurd hgiven (Nat.not_lt.mpr (he ▸ hlater))
  · rw [endingsOf_step h hx a, hrelease]
    rfl

/-! ## What is held has not ended -/

/-- A write whose writer is held has met no other fate. -/
theorem Meets.eq_waiting {a : Arrival} {f : Fate} (h : Meets a f c)
    (hw : w ∈ c.world.throttle.waiting) (ht : w.ticket = a.ticket) : f = .waiting := by
  have hkept : .held w ∈ f.kept a := by
    rw [← h.kept]
    exact List.mem_map_of_mem (List.mem_filter.mpr ⟨hw, beq_iff_eq.mpr ht⟩)
  cases f with
  | waiting => rfl
  | passed _ | bounced _ | crashed _ | wentOn _ | gaveUp _ _ | brokeOff _ =>
    exact absurd hkept List.not_mem_nil

/-- A write that has ended is not held. -/
theorem Meets.free {a : Arrival} {f : Fate} (h : Meets a f c) (hends : f.endings a ≠ []) :
    ∀ w ∈ c.world.throttle.waiting, w.ticket ≠ a.ticket := by
  intro w hw ht
  cases h.eq_waiting hw ht
  exact hends rfl

/-- A pass that leaves its writer held tells nothing of any write. -/
theorem Passed.story_of_keeps (h : Passed c w now c') (hk : c.world.keeps w now = true) :
    c'.story ticket = c.story ticket := by
  obtain ⟨hflooded, hdeadline⟩ := World.keeps_iff.mp hk
  cases h with
  | stays _ =>
    have hlook : (c.world.look w.session).verdict = .flooded := hflooded
    simp [story, hlook]
  | givesUp _ hd hn => exact absurd hn (Nat.not_le.mpr (hdeadline _ hd))
  | goesOn hv | breaks hv =>
    rw [hv] at hflooded
    cases hflooded

/-- Nothing has come of the writes of held writers, nor of those that are still to come. -/
structure Pending (c : Course) : Prop where
  fresh : Fresh c
  held : ∀ w ∈ c.world.throttle.waiting, c.story w.ticket = []

theorem Pending.move (ho : Orderly c) (h : Pending c) (hm : Move c c') : Pending c' := by
  refine ⟨h.fresh.move ho hm, fun x hx => ?_⟩
  cases hm with
  | surround _ _ _ _ | wakeup _ | call _ | answer _ => exact h.held x hx
  | @write _ session request now hw =>
    rcases (Move.write hw).mem_waiting hx with hmem | hnew
    · rw [hw.story_of_ne (Nat.ne_of_gt (ho.given x hmem))]
      exact h.held x hmem
    · obtain ⟨f, hmeets⟩ := hw.meets (h.fresh _ (Nat.le_refl _)) ho.kept_arrivals
      cases hmeets.eq_waiting hx hnew
      exact hnew ▸ hmeets.told
  | @pass _ w now hw hp =>
    by_cases hk : c.world.keeps w now = true
    · have hwaiting := hp.waiting
      rw [if_pos hk] at hwaiting
      rw [hp.story_of_keeps hk]
      exact h.held x (hwaiting ▸ hx)
    · have hwaiting := hp.waiting
      rw [if_neg hk] at hwaiting
      rw [hwaiting, List.mem_filter, bne_iff_ne] at hx
      rw [hp.story_of_ne (Ne.symm hx.2)]
      exact h.held x hx.1

/-- The write of a held writer has not ended. -/
theorem endingsOf_of_held (s : Settings) (actions : List Action) :
    ∀ w ∈ ((Course.start s).run actions).world.throttle.waiting,
      ((Course.start s).run actions).endingsOf w.ticket = [] := by
  have hstart : Pending (Course.start s) := ⟨fun _ _ => rfl, fun _ _ => rfl⟩
  have hpending := invariant_run Pending.move (.start s) hstart actions
  intro w hw
  rw [endingsOf_eq, hpending.held w hw]
  rfl

/-! ## Runs -/

/-- After any actions a writer that was held is so still, or its write has ended, as the
scene and the actions say. -/
theorem outcome_run (h : Orderly c) (hx : x ∈ c.world.throttle.waiting) (as : List Action) :
    (x ∈ (c.run as).world.throttle.waiting ↔ c.world.scene.outcome x as = none) ∧
      (c.run as).endingsOf x.ticket =
        c.endingsOf x.ticket ++ (c.world.scene.outcome x as).toList := by
  induction as generalizing c with
  | nil => exact ⟨iff_of_true hx rfl, (List.append_nil _).symm⟩
  | cons a as ih =>
    rw [run_cons, Scene.outcome]
    cases hrelease : c.world.scene.release x a with
    | none =>
      have hstep := (waiting_step h hx a).mpr hrelease
      have hends := endingsOf_step h hx a
      rw [hrelease, Option.toList_none, List.append_nil] at hends
      rw [Option.none_or, ← scene_step, ← hends]
      exact ih (h.step a) hstep
    | some e =>
      have hover : Over x.ticket (c.endingsOf x.ticket ++ [e]) ((c.step a).run as) :=
        invariant_run Over.move (h.step a) (over_of_release h hx hrelease) as
      exact ⟨iff_of_false (fun hm => hover.free x hm rfl) nofun, hover.ended⟩

/-! ## Writes -/

theorem endingsOf_of_past
    (h : c'.past.filterMap Happening.ending? = c.past.filterMap Happening.ending?) :
    c'.endingsOf ticket = c.endingsOf ticket := by
  simp only [endingsOf, endings, happened, List.filterMap_reverse, h]

theorem endingsOf_finish (c : Course) (ticket : Nat) (e : Ending) :
    (c.finish ticket e).endingsOf ticket = c.endingsOf ticket ++ [e] := by
  simp [endingsOf, endings, happened, Happening.ending?]

/-- A write that is handed on ends as the next stage answers. -/
theorem endingsOf_forward (c : Course) (ticket session : Nat) (request : Request) :
    (c.forward ticket session request).endingsOf ticket =
      c.endingsOf ticket ++
        [.forwarded (c.world.scene.stage.outcome (.write session request))] := by
  have hcalled : (c.note (.forwarded (some ticket) (.write session request))).endingsOf ticket =
      c.endingsOf ticket := endingsOf_of_past rfl
  exact (endingsOf_finish _ _ _).trans (congrArg (· ++ _) hcalled)

theorem endingsOf_warn (c : Course) (t : Nat) :
    (c.warn t session now).endingsOf ticket = c.endingsOf ticket := by
  refine endingsOf_of_past ?_
  rw [past_warn]
  exact c.warnTrail_append t session now (f := (List.filterMap Happening.ending? ·))
    (fun _ _ _ _ => rfl) (fun _ _ => rfl) (fun _ _ => rfl) c.past

/-- A writer that starts to wait goes through its first pass. -/
theorem endingsOf_await {d : Course} (hscene : d.world.scene = c.world.scene)
    (hnone : d.endingsOf c.world.arrivals = []) :
    ((d.await (c.newWaiter session request now)).pass (c.newWaiter session request now)
        now).endingsOf c.world.arrivals =
      (c.world.scene.settle (c.newWaiter session request now) now).toList := by
  have hself := endingsOf_pass_self (d.await (c.newWaiter session request now))
    (c.newWaiter session request now) now
  have hawait : (d.await (c.newWaiter session request now)).endingsOf c.world.arrivals = [] :=
    (endingsOf_of_past (by rfl)).trans hnone
  have hscene' : (d.await (c.newWaiter session request now)).world.scene = c.world.scene := hscene
  rw [hscene'] at hself
  exact hself.trans (congrArg (· ++ _) hawait)

/-- A new write has come to the end that the scene brings to it at once, if any. -/
theorem endingsOf_write (hnone : c.endingsOf c.world.arrivals = []) :
    (c.write session request now).endingsOf c.world.arrivals =
      (c.world.scene.meet (c.arrival session request now)).toList := by
  have hlook : (c.lookFirst session request).endingsOf c.world.arrivals = [] :=
    (endingsOf_of_past (by rfl)).trans hnone
  have hthrottled : ∀ p, (c.throttled session request p).endingsOf c.world.arrivals = [] :=
    fun p => (endingsOf_of_past (by rfl)).trans hnone
  have hwarned : ∀ p, ((c.throttled session request p).warn c.world.arrivals session
      now).endingsOf c.world.arrivals = [] :=
    fun p => (endingsOf_warn _ _).trans (hthrottled p)
  have hscene : ∀ p, ((c.throttled session request p).warn c.world.arrivals session
      now).world.scene = c.world.scene := by
    intro p
    have hwarn := World.scene_eq_of_ground
      (ground_warn (c.throttled session request p) c.world.arrivals session now)
    exact hwarn
  unfold Scene.meet
  by_cases hoff : c.world.throttle.config.policy = .off
  · have htreated : (c.arrival session request now).treatment = .passes :=
      Arrival.treatment_eq_passes_iff.mpr (.inl hoff)
    have harrived : (c.arrive session request).endingsOf c.world.arrivals = [] :=
      (endingsOf_of_past (by rfl)).trans hnone
    rw [write_of_off hoff, htreated]
    exact (endingsOf_forward _ _ _ _).trans (congrArg (· ++ _) harrived)
  cases hv : c.world.verdict session with
  | ready =>
    have htreated : (c.arrival session request now).treatment = .passes :=
      Arrival.treatment_eq_passes_iff.mpr (.inr (.inl hv))
    rw [write_of_ready hoff hv, htreated]
    exact (endingsOf_forward _ _ _ _).trans (congrArg (· ++ _) hlook)
  | unreadable =>
    have htreated : (c.arrival session request now).treatment = .crashes :=
      Arrival.treatment_eq_crashes_iff.mpr ⟨hoff, hv⟩
    rw [write_of_unreadable hoff hv, htreated]
    exact (endingsOf_finish _ _ _).trans (congrArg (· ++ _) hlook)
  | flooded =>
    cases hp : c.world.throttle.config.policy with
    | off => exact absurd hp hoff
    | log =>
      have htreated : (c.arrival session request now).treatment = .passes :=
        Arrival.treatment_eq_passes_iff.mpr (.inr (.inr ⟨hp, hv⟩))
      have hforward := endingsOf_forward ((c.throttled session request .log).warn
        c.world.arrivals session now) c.world.arrivals session request
      rw [hwarned, hscene] at hforward
      rw [write_of_flooded hp nofun hv, htreated]
      exact hforward
    | exception =>
      have htreated : (c.arrival session request now).treatment = .bounces :=
        Arrival.treatment_eq_bounces_iff.mpr ⟨hp, hv⟩
      have hcounted : ((c.throttled session request .exception).record .rejected).endingsOf
          c.world.arrivals = [] := (endingsOf_of_past (by rfl)).trans (hthrottled .exception)
      rw [write_of_flooded hp nofun hv, htreated]
      exact (endingsOf_finish _ _ _).trans (congrArg (· ++ _) hcounted)
    | block =>
      have htreated : (c.arrival session request now).treatment = .waits :=
        Arrival.treatment_eq_waits_iff.mpr ⟨congrArg Policy.holds hp, hv⟩
      have hhold : (c.throttled session request .block).hold c.world.arrivals session request
          now = _ := hold_eq rfl
      rw [write_of_flooded hp nofun hv, htreated]
      exact (congrArg (endingsOf · _) hhold).trans (endingsOf_await rfl (hthrottled .block))
    | logAndBlock =>
      have htreated : (c.arrival session request now).treatment = .waits :=
        Arrival.treatment_eq_waits_iff.mpr ⟨congrArg Policy.holds hp, hv⟩
      have hhold : ((c.throttled session request .logAndBlock).warn c.world.arrivals session
          now).hold c.world.arrivals session request now = _ := hold_eq (by simp)
      rw [write_of_flooded hp nofun hv, htreated]
      exact (congrArg (endingsOf · _) hhold).trans
        (endingsOf_await (hscene .logAndBlock) (hwarned .logAndBlock))

/-- What has come of a write can be read off the scene in which it came and the actions that
followed. -/
theorem ending_run (s : Settings) (before after : List Action) (session : Nat)
    (payload : Payload) (now : Instant) :
    let c := (Course.start s).run before
    let a := c.arrival session (c.world.issue payload).1 now
    let d := (Course.start s).run (before ++ .write session payload now :: after)
    let ending := (c.world.scene.meet a).or (c.world.scene.outcome a.waiter after)
    (a.waiter ∈ d.world.throttle.waiting ↔ ending = none) ∧
      d.endingsOf a.ticket = ending.toList := by
  intro c a d ending
  have ho : Orderly c := orderly_run s before
  have hfresh : c.endingsOf c.world.arrivals = [] := by
    rw [endingsOf_eq, fresh_run s before _ (Nat.le_refl _)]
    rfl
  obtain ⟨hgiven, f, hmeets⟩ : Settled a (c.step (.write session payload now)) :=
    settled_write (ho.issuing payload) (fresh_run s before) session _ now
  have hwrite : (c.step (.write session payload now)).endingsOf a.ticket =
      (c.world.scene.meet a).toList := endingsOf_write (c := c.issuing payload) hfresh
  have hf : f.endings a = (c.world.scene.meet a).toList := hmeets.endingsOf.symm.trans hwrite
  have hrun : ((c.step (.write session payload now)).run after).endingsOf a.ticket =
      ending.toList := by
    simp only [ending]
    cases hmeet : c.world.scene.meet a with
    | some e =>
      rw [hmeet] at hwrite hf
      have hne : f.endings a ≠ [] := by
        rw [hf]
        exact List.cons_ne_nil _ _
      have hover : Over a.ticket [e] (c.step (.write session payload now)) :=
        ⟨hgiven, hmeets.free hne, hwrite⟩
      exact (invariant_run Over.move (ho.step _) hover after).ended
    | none =>
      rw [hmeet] at hwrite hf
      have houtcome := (outcome_run (ho.step _) (hmeets.waiting_iff.mpr hf) after).2
      rw [scene_step] at houtcome
      exact houtcome.trans (congrArg (· ++ _) hwrite)
  have hends : d.endingsOf a.ticket = ending.toList := by
    rw [← hrun, ← run_cons, ← run_append]
  obtain ⟨f, hmeets⟩ := meets_run s before after session payload now
  refine ⟨?_, hends⟩
  rw [hmeets.waiting_iff, ← hmeets.endingsOf, hends]
  exact Option.toList_eq_nil_iff

end Course

end Pipeline

end Backpressure
