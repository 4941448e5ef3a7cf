import Backpressure.Proofs.Loads
import Backpressure.Proofs.Scenes
set_option autoImplicit false

/-!
# Closing sessions

A session that is closing stays so, whatever is scheduled or completed on it or on other
sessions. It is ready without a look at its load, so a write on it goes on at once under every
policy and leaves the throttle as it was. No writer starts to wait for it, and the next wake
lets those go that do, even if it is for another session and the next stage's hook fails.
Without this a writer could wait for ever for a session that is shut down.
-/

namespace Backpressure

namespace Readiness

theorem verdict_ne_flooded_of_closing {v : View} (hc : v.closing = true)
    (limits : Figures UInt64) : verdict limits v ≠ .flooded := by
  unfold verdict examine
  cases v.lost <;> simp [hc]

end Readiness

namespace Ledger

/-! ## Closing is for good -/

variable {l : Ledger} {session : Nat}

theorem closing_iff :
    (l.view session).closing = true ↔
      ∃ x, l.sessions[session]? = some x ∧ x.closing = true := by
  unfold view
  cases l.sessions[session]? <;> simp

/-- A session is closing once it was closed. -/
theorem closing_close (hs : session < l.sessions.length) :
    ((l.close session).view session).closing = true := by
  refine closing_iff.mpr ⟨{ l.sessions[session] with closing := true }, ?_, rfl⟩
  simp [close, hs]

/-- What no change of its load and no mark takes from a session, no entry takes from it. -/
theorem session_post {P : Session → Prop} (hload : ∀ x load, P x → P { x with load := load })
    (hclose : ∀ x, P x → P { x with closing := true })
    (hlose : ∀ x, P x → P { x with lost := true })
    (h : ∃ x, l.sessions[session]? = some x ∧ P x) (e : Entry) :
    ∃ x, (l.post e).sessions[session]? = some x ∧ P x := by
  obtain ⟨x, hx, hholds⟩ := h
  have hchange : ∀ (other : Nat) (f : Load → Load),
      ∃ y, (l.changeLoad other f).sessions[session]? = some y ∧ P y := by
    intro other f
    refine ⟨_, sessions_changeLoad.trans (congrArg _ hx), ?_⟩
    split
    · exact hload x _ hholds
    · exact hholds
  have hmark : ∀ (other : Nat) (mark : Session → Session), P (mark x) →
      ∃ y, (l.sessions.modify other mark)[session]? = some y ∧ P y := by
    intro other mark hmarked
    by_cases he : other = session
    · exact ⟨mark x, by simp [hx, he], hmarked⟩
    · exact ⟨x, by simp [hx, he], hholds⟩
  cases e with
  | openService => exact ⟨x, hx, hholds⟩
  | openSession service =>
    have hlt : session < l.sessions.length := (List.getElem?_eq_some_iff.mp hx).1
    refine ⟨x, ?_, hholds⟩
    unfold post openSession
    dsimp only
    split
    · exact hx
    · exact (List.getElem?_append_left hlt).trans hx
  | schedule other bytes | complete other bytes => exact hchange other _
  | close other => exact hmark other _ (hclose x hholds)
  | lose other => exact hmark other _ (hlose x hholds)

/-- No entry takes the mark off a closing session. -/
theorem closing_post (h : (l.view session).closing = true) (e : Entry) :
    ((l.post e).view session).closing = true :=
  closing_iff.mpr (session_post (fun _ _ hc => hc) (fun _ _ => rfl) (fun _ hc => hc)
    (closing_iff.mp h) e)

end Ledger

namespace Pipeline

/-- What every entry keeps the next stage keeps when it completes its writes. -/
theorem Scene.ledger_drain {s : Scene} {P : Ledger → Prop} (hpost : ∀ l e, P l → P (l.post e))
    (h : P s.ledger) : P s.drain.ledger := by
  unfold Scene.drain
  generalize s.ledger = l at h ⊢
  induction s.stage.drains generalizing l with
  | nil => exact h
  | cons d ds ih => exact ih _ (hpost l (.complete d.session d.bytes) h)

/-- The next stage completes writes, which leaves closing sessions closing. -/
theorem Scene.closing_drain {s : Scene} {session : Nat}
    (h : (s.ledger.view session).closing = true) :
    (s.drain.ledger.view session).closing = true :=
  Scene.ledger_drain (P := fun l => (l.view session).closing = true)
    (fun l e hc => l.closing_post hc e) h

theorem Scene.closing_step {s : Scene} {session : Nat}
    (h : (s.ledger.view session).closing = true) (a : Action) :
    ((s.step a).ledger.view session).closing = true := by
  cases a with
  | post entry => exact s.ledger.closing_post h entry
  | exception _ _ _ => exact Scene.closing_drain h
  | configure _ | direct _ | write _ _ _ | expire _ _ | wake _ | sent _ _ _ | closed _ _ =>
    exact h

namespace Course

variable {c c' : Course} {x : Waiter} {session : Nat} {request : Request} {now : Instant}

theorem closing_run (h : (c.world.ledger.view session).closing = true) (as : List Action) :
    ((c.run as).world.ledger.view session).closing = true := by
  induction as generalizing c with
  | nil => exact h
  | cons a as ih =>
    have hstep : ((c.world.scene.step a).ledger.view session).closing = true :=
      Scene.closing_step h a
    rw [← scene_step] at hstep
    exact ih hstep

theorem closing_atWake {a : Action} {v : World}
    (h : (c.world.ledger.view session).closing = true) (ha : c.world.atWake a = some v) :
    (v.ledger.view session).closing = true := by
  cases a with
  | post _ | configure _ | direct _ | write _ _ _ | expire _ _ => cases ha
  | wake _ | sent _ _ _ | closed _ _ =>
    cases ha
    exact h
  | exception _ _ _ =>
    cases ha
    exact Scene.closing_drain (s := c.world.scene) h

/-! ## Nobody waits for a closing session -/

/-- A write makes its writer wait only if its session is over a limit. -/
theorem Written.mem_waiting (h : Written c session request now c')
    (hx : x ∈ c'.world.throttle.waiting) :
    x ∈ c.world.throttle.waiting ∨ x.session = session ∧ c.world.verdict session = .flooded := by
  have hnew : c.world.verdict session = .flooded →
      x ∈ c.world.throttle.waiting ++ [c.newWaiter session request now] →
      x ∈ c.world.throttle.waiting ∨
        x.session = session ∧ c.world.verdict session = .flooded := by
    intro hv hx
    rw [List.mem_append, List.mem_singleton] at hx
    exact hx.imp_right fun he => ⟨congrArg Waiter.session he, hv⟩
  cases h with
  | untouched _ | ready _ _ | lost _ _ | rejected _ _ => exact .inl hx
  | passes _ _ => exact .inl (by simpa using hx)
  | waits _ hv => exact hnew hv hx
  | warnsAndWaits _ hv => exact hnew hv (by simpa using hx)

/-- A writer starts to wait only if its session is over a limit. -/
theorem mem_waiting_of_step (h : Orderly c) {a : Action}
    (hx : x ∈ (c.step a).world.throttle.waiting) :
    x ∈ c.world.throttle.waiting ∨ c.world.verdict x.session = .flooded := by
  cases ha : c.world.atWake a with
  | some v =>
    obtain ⟨now, -, hwaiting⟩ := waiting_step_of_wake h ha
    rw [hwaiting] at hx
    exact .inl (List.mem_filter.mp hx).1
  | none =>
    cases a with
    | wake _ | sent _ _ _ | exception _ _ _ | closed _ _ => cases ha
    | post _ | configure _ | direct _ => exact .inl hx
    | expire ticket now =>
      rcases expire_cases h ticket now with ⟨w, -, -, -, heq⟩ | ⟨heq, -⟩
      · change x ∈ (c.expire ticket now).world.throttle.waiting at hx
        rw [heq] at hx
        exact .inl ((passed_pass c w now).waiting_subset hx)
      · change x ∈ (c.expire ticket now).world.throttle.waiting at hx
        rw [heq] at hx
        exact .inl hx
    | write session payload now =>
      change x ∈ ((c.issuing payload).write session (c.world.issue payload).1
        now).world.throttle.waiting at hx
      have hmem : x ∈ c.world.throttle.waiting ∨
          x.session = session ∧ c.world.verdict session = .flooded := by
        rcases written_write (c.issuing payload) session (c.world.issue payload).1 now with
          hw | ⟨d, hw, -, heq⟩
        · exact hw.mem_waiting hx
        · rw [heq] at hx
          exact hw.mem_waiting ((passed_pass d _ now).waiting_subset hx)
      exact hmem.imp_right fun ⟨hs, hv⟩ => hs ▸ hv

/-- A session is closing, and no writer waits for it. -/
structure Deserted (session : Nat) (c : Course) : Prop where
  orderly : Orderly c
  closing : (c.world.ledger.view session).closing = true
  free : ∀ w ∈ c.world.throttle.waiting, w.session ≠ session

theorem Deserted.step (h : Deserted session c) (a : Action) : Deserted session (c.step a) := by
  refine ⟨h.orderly.step a, closing_run h.closing [a], fun w hw he => ?_⟩
  rcases mem_waiting_of_step h.orderly hw with hmem | hflooded
  · exact h.free w hmem he
  · rw [he] at hflooded
    exact Readiness.verdict_ne_flooded_of_closing h.closing _ hflooded

theorem Deserted.run (h : Deserted session c) (as : List Action) :
    Deserted session (c.run as) := by
  induction as generalizing c with
  | nil => exact h
  | cons a as ih => exact ih (h.step a)

/-- A wake leaves nobody waiting for a closing session. -/
theorem deserted_of_wake (h : Orderly c) (hc : (c.world.ledger.view session).closing = true)
    {a : Action} {v : World} (ha : c.world.atWake a = some v) : Deserted session (c.step a) := by
  refine ⟨h.step a, closing_run hc [a], fun w hw he => ?_⟩
  obtain ⟨now, -, hwaiting⟩ := waiting_step_of_wake h ha
  rw [hwaiting, List.mem_filter, World.keeps_iff, he] at hw
  exact Readiness.verdict_ne_flooded_of_closing (closing_atWake hc ha) _ hw.2.1

/-! ## Writes that go on at once -/

section Passes

variable (hpass : c.world.throttle.config.policy = .off ∨ c.world.verdict session = .ready)
include hpass

/-- A write that needs no throttling is counted as one more write; nothing else changes. -/
theorem world_write_of_passes :
    (c.write session request now).world =
      { c.world with arrivals := c.world.arrivals + 1 } := by
  by_cases hoff : c.world.throttle.config.policy = .off
  · rw [write_of_off hoff]
    rfl
  · rw [write_of_ready hoff (hpass.resolve_left hoff)]
    rfl

/-- The history of such a write: it comes, is looked at unless the policy is off, and is handed
on once. -/
theorem happened_write_of_passes :
    (c.write session request now).happened =
      c.happened ++
        (.arrived c.world.arrivals session request c.world.throttle.config.policy ::
          (if c.world.throttle.config.policy = .off then []
            else [.looked c.world.arrivals session (c.world.look session)])) ++
        [.forwarded (some c.world.arrivals) (.write session request),
         .ended c.world.arrivals
          (.forwarded (c.world.stage.outcome (.write session request)))] := by
  by_cases hoff : c.world.throttle.config.policy = .off
  · simp [write_of_off hoff, happened, hoff]
    rfl
  · simp [write_of_ready hoff (hpass.resolve_left hoff), happened, hoff]
    rfl

theorem signals_write_of_passes : (c.write session request now).signals = c.signals := by
  rw [signals, happened_write_of_passes hpass, List.flatMap_append, List.flatMap_append]
  split <;> simp [signals, Happening.signals]

theorem events_write_of_passes : (c.write session request now).events = c.events := by
  rw [events, happened_write_of_passes hpass, List.filterMap_append, List.filterMap_append]
  split <;> simp [events, Happening.event?]

end Passes

/-- A write on a session that is ready is handed on at once. -/
theorem handed_on_of_ready (s : Settings) (actions : List Action) (session : Nat)
    (payload : Payload) (now : Instant) :
    let c := (Course.start s).run actions
    let d := c.step (.write session payload now)
    let call := Call.write session (c.world.issue payload).1
    c.world.verdict session = .ready →
      d.endingsOf c.world.arrivals = [.forwarded (c.world.stage.outcome call)] ∧
        d.callsOf c.world.arrivals = [call] := by
  intro c d call hready
  have hrun : (Course.start s).run (actions ++ [.write session payload now]) = d := by
    rw [run_append]
    rfl
  have htreated : (c.arrival session (c.world.issue payload).1 now).treatment = .passes :=
    Arrival.treatment_eq_passes_iff.mpr (.inr (.inl hready))
  have hends : d.endingsOf c.world.arrivals = [.forwarded (c.world.stage.outcome call)] := by
    have hended := (ending_run s actions [] session payload now).2
    rw [Scene.meet, htreated, hrun] at hended
    exact hended
  obtain ⟨f, hmeets⟩ := meets_run s actions [] session payload now
  rw [hrun] at hmeets
  have hforwarded := hmeets.endingsOf.symm.trans hends
  exact ⟨hends, hmeets.callsOf.trans
    (f.calls_of_forwarded (hforwarded ▸ List.mem_singleton.mpr rfl))⟩

/-! ## Runs -/

/-- Once a session was closed, in every later course in which it can be read it is ready
under any limits, which takes one reading and none of its load; a write on it is handed on
at once and leaves the throttle, its counters and the trace as they were. From the next
wake on, whatever it was for and whatever the next stage made of it, nobody waits for the
session. -/
theorem closing_never_throttled (s : Settings) (before after : List Action) (session : Nat) :
    let c := (Course.start s).run before
    let d := (Course.start s).run (before ++ .post (.close session) :: after)
    session < c.world.ledger.sessions.length →
      ((d.world.ledger.view session).lost = false →
        (∀ limits,
          Readiness.examine limits (d.world.ledger.view session) = ⟨[.closing], .ready⟩) ∧
        ∀ payload now,
          let e := d.step (.write session payload now)
          let request := (d.world.issue payload).1
          e.world.throttle = d.world.throttle ∧ e.world.ledger = d.world.ledger ∧
            e.signals = d.signals ∧ e.events = d.events ∧
            e.endingsOf d.world.arrivals =
              [.forwarded (d.world.stage.outcome (.write session request))] ∧
            e.callsOf d.world.arrivals = [.write session request]) ∧
      ((∃ a ∈ after, a.moment? ≠ none) →
        ∀ w ∈ d.world.throttle.waiting, w.session ≠ session) := by
  intro c d hs
  have hc : Orderly (c.step (.post (.close session))) := (orderly_run s before).step _
  have hclose : ((c.step (.post (.close session))).world.ledger.view session).closing = true :=
    Ledger.closing_close hs
  have hd : d = (c.step (.post (.close session))).run after := by
    simp only [d, run_append, run_cons]
    rfl
  refine ⟨fun hread => ?_, fun ⟨a, ha, hwake⟩ => ?_⟩
  · have hclosing : (d.world.ledger.view session).closing = true := by
      rw [hd]
      exact closing_run hclose after
    have hlook : ∀ limits,
        Readiness.examine limits (d.world.ledger.view session) = ⟨[.closing], .ready⟩ :=
      fun _ => Readiness.examine_of_closing hread hclosing
    have hready : d.world.verdict session = .ready := by
      rw [World.verdict, World.look, hlook]
    refine ⟨hlook, fun payload now => ?_⟩
    intro e request
    have hpass : (d.issuing payload).world.throttle.config.policy = .off ∨
        (d.issuing payload).world.verdict session = .ready := .inr hready
    have hworld : e.world = { (d.issuing payload).world with arrivals := d.world.arrivals + 1 } :=
      world_write_of_passes hpass
    obtain ⟨hends, hcalls⟩ := handed_on_of_ready s (before ++ .post (.close session) :: after)
      session payload now hready
    refine ⟨?_, ?_, signals_write_of_passes hpass, events_write_of_passes hpass, hends, hcalls⟩
    · rw [hworld]
      rfl
    · rw [hworld]
      rfl
  · obtain ⟨as, bs, rfl⟩ := List.append_of_mem ha
    obtain ⟨m, hm⟩ := Option.ne_none_iff_exists'.mp hwake
    obtain ⟨v, hv⟩ := atWake_of_moment (w := ((c.step (.post (.close session))).run as).world) hm
    have hdeserted := deserted_of_wake (hc.run as) (closing_run hclose as) hv
    rw [hd, run_append, run_cons]
    exact (hdeserted.run bs).free

/-- Writers are held on two sessions; the second one is closed and given more to write. An
error on the first one, at which the next stage crashes, lets its writer go. -/
theorem closing_never_throttled_heldTwo :
    let d := (Course.start { policy := .block, limits := ⟨1, 0, 0, 0⟩ }).run
      (holdTwo ++ .post (.close 1) ::
        [.post (.schedule 1 99), .exception 0 (.other "reset") { now := 9 }])
    (∀ w ∈ d.world.throttle.waiting, w.session ≠ 1) ∧
      (d.world.look 1).taken = [.closing] ∧
      (d.step (.write 1 [9] 10)).endingsOf 2 = [.forwarded .done] := by
  intro d
  obtain ⟨hready, hfree⟩ := closing_never_throttled { policy := .block, limits := ⟨1, 0, 0, 0⟩ }
    holdTwo [.post (.schedule 1 99), .exception 0 (.other "reset") { now := 9 }] 1 (by decide)
  obtain ⟨hlook, hwrite⟩ := hready (by decide)
  obtain ⟨-, -, -, -, hends, -⟩ := hwrite [9] 10
  exact ⟨hfree ⟨.exception 0 (.other "reset") { now := 9 }, by simp, nofun⟩,
    congrArg Look.taken (hlook d.world.throttle.config.limits), hends⟩

end Course

end Pipeline

end Backpressure
