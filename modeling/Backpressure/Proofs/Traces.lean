import Backpressure.Proofs.Closing
import Backpressure.Proofs.Exports
import Backpressure.Proofs.Warnings
set_option autoImplicit false

/-!
# What the trace tells of a write

The events of one write are told at two times: when it comes, and when its wait is over. What
is told when it comes goes by its policy, by what a look at its session shows and by the gate.
After that only the end of its wait is told, if it was not broken off, and it is told under the
same session as before: a session keeps its identity in the ledger, whatever becomes of it.
However the writes of a run overlap, the trace is made of their events and of nothing else, so
the numbers of events agree with the counters.
-/

namespace Backpressure

/-! ## Kinds of events -/

namespace Event

/-- The event warns about a flooded session. -/
def isWarning : Event → Bool
  | warning _ _ => true
  | holding _ | released _ _ _ => false

/-- The event tells that a writer is held. -/
def isHolding : Event → Bool
  | holding _ => true
  | warning _ _ | released _ _ _ => false

/-- The event tells that a writer was released. -/
def isReleased : Event → Bool
  | released _ _ _ => true
  | warning _ _ | holding _ => false

/-- The event tells that a writer was released since its wait timed out. -/
def isTimeout : Event → Bool
  | released _ _ .timedOut => true
  | warning _ _ | holding _ | released _ _ .ready => false

/-- How long the writer waited that was released. -/
def waited? : Event → Option Duration
  | released _ waited _ => some waited
  | warning _ _ | holding _ => none

/-- The event without the time that a released writer waited. -/
def untimed : Event → Event
  | warning session report => .warning session report
  | holding session => .holding session
  | released session _ e => .released session .zero e

theorem fields_untimed (e : Event) : e.untimed.fields = e.fields := by cases e <;> rfl

end Event

/-! ## Identities of sessions -/

namespace Ledger

/-- A session with an identity stands at a place. -/
def Names (l : Ledger) (session : Nat) (id : SessionId) : Prop :=
  ∃ x, l.sessions[session]? = some x ∧ x.id = id

theorem Names.idOf {l : Ledger} {session : Nat} {id : SessionId} (h : l.Names session id) :
    l.idOf session = id := by
  obtain ⟨x, hx, hid⟩ := h
  rw [Ledger.idOf, hx]
  exact hid

/-- A session keeps its identity. -/
theorem Names.post {l : Ledger} {session : Nat} {id : SessionId} (h : l.Names session id)
    (e : Entry) : (l.post e).Names session id :=
  session_post (fun _ _ hid => hid) (fun _ hid => hid) (fun _ hid => hid) h e

end Ledger

namespace Pipeline

/-- A session that is over a limit stands in the ledger. -/
theorem World.names_of_flooded {w : World} {session : Nat} (h : w.verdict session = .flooded) :
    w.ledger.Names session (w.ledger.idOf session) := by
  cases hx : w.ledger.sessions[session]? with
  | none =>
    have hview : (w.ledger.view session).lost = true := by rw [Ledger.view, hx]
    have hverdict : w.verdict session = .unreadable := by
      rw [World.verdict, World.look, Readiness.examine, if_pos hview]
    rw [hverdict] at h
    cases h
  | some x =>
    refine ⟨x, hx, ?_⟩
    rw [Ledger.idOf, hx]
    rfl

/-! ## Readings of the past -/

namespace Happening

/-- The write that something happens to. -/
def ticket? : Happening → Option Nat
  | arrived t _ _ _ | looked t _ _ | throttled t _ | asked t _ _ _ | entered t _ | left t _
  | traced t _ | ended t _ => some t
  | forwarded t _ => t
  | recorded _ | answered _ => none

/-- The end of a wait that was not broken off, with the write that waited. -/
def waitEnd? : Happening → Option (Nat × WaitEnd)
  | left t (some e) => some (t, e)
  | _ => none

/-- What the trace is told about a write. -/
def eventOf? (ticket : Nat) : Happening → Option Event
  | traced t e => if t = ticket then some e else none
  | _ => none

/-- The end of the wait of a write, if it was not broken off. -/
def waitEndOf? (ticket : Nat) : Happening → Option WaitEnd
  | left t (some e) => if t = ticket then some e else none
  | _ => none

/-- The time for which a writer was held, as it is counted when its wait ends. -/
def waitCounted? : Happening → Option Duration
  | recorded (.blocked waited) => some waited
  | _ => none

/-- The time for which a writer was held, as the trace is told of its release. -/
def waitTold? (x : Happening) : Option Duration := x.event?.bind fun e => e.2.waited?

/-- A happening marks what a throttle does with a write when it comes. -/
def marks (ticket : Nat) : Happening → Bool
  | throttled t _ | asked t _ _ _ | entered t _ => t == ticket
  | _ => false

variable {ticket : Nat} {x : Happening}

theorem ticket?_of_marks (h : x.marks ticket = true) : x.ticket? = some ticket := by
  cases x with
  | throttled _ _ | asked _ _ _ _ | entered _ _ => exact congrArg some (beq_iff_eq.mp h)
  | _ => cases h

theorem ticket?_of_eventOf? {e : Event} (h : x.eventOf? ticket = some e) :
    x.ticket? = some ticket := by
  cases x with
  | traced t _ =>
    obtain ⟨rfl, -⟩ := Option.ite_none_right_eq_some.mp h
    rfl
  | _ => cases h

theorem eq_left_of_waitEndOf? {e : WaitEnd} (h : x.waitEndOf? ticket = some e) :
    x = .left ticket (some e) := by
  cases x with
  | left t o =>
    cases o with
    | none => cases h
    | some _ =>
      obtain ⟨rfl, he⟩ := Option.ite_none_right_eq_some.mp h
      rw [Option.some.inj he]
  | _ => cases h

end Happening

namespace Arrival

variable (a : Arrival)

/-- The write is throttled. -/
def isThrottled : Bool := a.policy != .off && a.verdict == .flooded

/-- The write asks for a warning. -/
def warns : Bool := a.policy.warns && a.verdict == .flooded

/-- The writer starts to wait. -/
def holds : Bool := a.policy.holds && a.verdict == .flooded

/-- What marks the write when it comes, latest first, with the interval that is read for a
warning and the answer of the gate. -/
def marks (interval : Duration) (admitted : Bool) : List Happening :=
  (if a.holds then [.entered a.ticket a.bound] else []) ++
    (if a.warns then [.asked a.ticket a.now interval admitted] else []) ++
    if a.isThrottled then [.throttled a.ticket a.policy] else []

/-- What the trace is told when the write comes. -/
def opening (id : SessionId) (report : String) (admitted : Bool) : List Event :=
  (if a.warns && admitted then [.warning id report] else []) ++
    if a.holds then [.holding id] else []

variable (interval : Duration) (admitted : Bool)

/-- The marks tell whether the write is warned about. -/
theorem warned_iff_marks :
    (a.warns && admitted) = true ↔
      (∃ p, (p = .log ∨ p = .logAndBlock) ∧ .throttled a.ticket p ∈ a.marks interval admitted) ∧
        ∃ m i, .asked a.ticket m i true ∈ a.marks interval admitted := by
  unfold marks warns holds isThrottled
  cases a.policy <;> cases a.verdict <;> cases admitted <;> simp [Policy.warns, Policy.holds]

/-- The marks tell whether the writer starts to wait. -/
theorem holds_iff_marks :
    a.holds = true ↔ ∃ b, .entered a.ticket b ∈ a.marks interval admitted := by
  unfold marks
  cases a.holds <;> cases a.warns <;> cases a.isThrottled <;> simp

theorem untimed_opening (id : SessionId) (report : String) :
    (a.opening id report admitted).map Event.untimed = a.opening id report admitted := by
  rw [opening, List.map_append]
  congr 1 <;> split <;> rfl

/-- The fields of what the trace is told when the write comes. -/
theorem fields_opening (id : SessionId) (report : String) :
    (a.opening id report admitted).map Event.fields =
      (if a.warns && admitted then
        [[("level", "WARN"), ("message", report), ("session", id.text)]]
      else []) ++
      if a.holds then
        [[("level", "DEBUG"), ("message", "Blocking writer until scheduled writes drain"),
          ("span", Event.blockSpan id)]]
      else [] := by
  rw [opening, List.map_append]
  congr 1 <;> split <;> rfl

end Arrival

/-- How many events of a kind the trace was told. -/
def told (p : Event → Bool) : List Happening → Nat
  | [] => 0
  | .traced _ e :: earlier => told p earlier + if p e then 1 else 0
  | _ :: earlier => told p earlier

namespace Course

/-- What the trace was told about a write. -/
def eventsOf (c : Course) (ticket : Nat) : List Event :=
  (c.events.filter (·.1 == ticket)).map Prod.snd

/-- How the waits of a write ended that were not broken off. -/
def waitEndsOf (c : Course) (ticket : Nat) : List WaitEnd :=
  ((c.happened.filterMap Happening.waitEnd?).filter (·.1 == ticket)).map Prod.snd

variable {c c' : Course} {w : Waiter} {ticket session : Nat} {request : Request} {now : Instant}

/-- What a view shows of a write is shown by what it shows of the write alone. -/
theorem view_eq_reverse {β : Type} {view : Happening → Option (Nat × β)}
    {viewOf : Happening → Option β}
    (hview : ∀ h, viewOf h = ((view h).filter (·.1 == ticket)).map Prod.snd) (c : Course) :
    ((c.happened.filterMap view).filter (·.1 == ticket)).map Prod.snd =
      (c.past.filterMap viewOf).reverse := by
  rw [happened, ← List.filterMap_reverse, List.filter_filterMap, List.map_filterMap]
  exact List.filterMap_congr fun h _ => (hview h).symm

theorem eventsOf_eq (c : Course) (ticket : Nat) :
    c.eventsOf ticket = (c.past.filterMap (Happening.eventOf? ticket)).reverse := by
  refine view_eq_reverse (fun h => ?_) c
  cases h with
  | traced t e => by_cases ht : t = ticket <;> simp [Happening.eventOf?, Happening.event?, ht]
  | _ => rfl

theorem waitEndsOf_eq (c : Course) (ticket : Nat) :
    c.waitEndsOf ticket = (c.past.filterMap (Happening.waitEndOf? ticket)).reverse := by
  refine view_eq_reverse (fun h => ?_) c
  cases h with
  | left t e =>
    cases e with
    | none => rfl
    | some e =>
      by_cases ht : t = ticket <;> simp [Happening.waitEndOf?, Happening.waitEnd?, ht]
  | _ => rfl

theorem countP_events (c : Course) (p : Event → Bool) :
    (c.events.countP fun x => p x.2) = told p c.past := by
  rw [events, happened, List.filterMap_reverse, List.countP_reverse]
  induction c.past with
  | nil => rfl
  | cons h earlier ih =>
    cases h with
    | traced t e =>
      have hcons : (Happening.traced t e :: earlier).filterMap Happening.event? =
          (t, e) :: earlier.filterMap Happening.event? := rfl
      rw [hcons, List.countP_cons, ih]
      rfl
    | _ => exact ih

/-! ## Writes that have come -/

/-- Nothing has happened to a write that has not come yet. -/
def Known (c : Course) : Prop :=
  ∀ h ∈ c.past, ∀ t, h.ticket? = some t → t < c.world.arrivals

namespace Known

theorem written (h : Known c) (hw : Written c session request now c') : Known c' := by
  have hlt : c.world.arrivals < c'.world.arrivals := hw.arrivals ▸ Nat.lt_succ_self _
  unfold Known
  generalize c'.world.arrivals = n at hlt ⊢
  have hlater : ∀ x ∈ c.past, ∀ t, x.ticket? = some t → t < n :=
    fun x hx t ht => Nat.lt_trans (h x hx t ht) hlt
  cases hw <;> simp [Happening.ticket?, newWaiter, or_imp, forall_and, hlt] <;> exact hlater

theorem passed (h : Known c) (ho : Orderly c) (hw : w ∈ c.world.throttle.waiting)
    (hp : Passed c w now c') : Known c' := by
  have hgiven := ho.given w hw
  unfold Known
  rw [hp.arrivals]
  cases hp <;> simp [Happening.ticket?, releaseTrail, hgiven] <;> exact h

theorem move (ho : Orderly c) (h : Known c) (hm : Move c c') : Known c' := by
  cases hm with
  | surround _ _ _ _ => exact h
  | write hw => exact h.written hw
  | pass hw hp => exact h.passed ho hw hp
  | wakeup _ | call _ | answer _ =>
    intro x hx t ht
    rcases List.mem_cons.mp hx with rfl | hx
    · cases ht
    · exact h x hx t ht

theorem run (s : Settings) (actions : List Action) : Known ((start s).run actions) :=
  invariant_run (P := Known) Known.move (.start s) (fun _ hx => absurd hx List.not_mem_nil) actions

theorem not_mem (h : Known c) {x : Happening} (hx : x.ticket? = some ticket)
    (ht : c.world.arrivals ≤ ticket) : x ∉ c.past :=
  fun hm => absurd (h x hm ticket hx) (Nat.not_lt.mpr ht)

/-- A write that has not come has no marks, no events, and no wait that has ended. -/
theorem fresh (h : Known c) (ht : c.world.arrivals ≤ ticket) :
    c.past.filter (Happening.marks ticket) = [] ∧
      c.past.filterMap (Happening.eventOf? ticket) = [] ∧
      c.past.filterMap (Happening.waitEndOf? ticket) = [] := by
  refine ⟨?_, ?_, ?_⟩
  · rw [List.filter_eq_nil_iff]
    intro x hx hmark
    exact h.not_mem (Happening.ticket?_of_marks hmark) ht hx
  · rw [List.filterMap_eq_nil_iff]
    intro x hx
    refine Option.eq_none_iff_forall_ne_some.mpr fun e he => ?_
    exact h.not_mem (Happening.ticket?_of_eventOf? he) ht hx
  · rw [List.filterMap_eq_nil_iff]
    intro x hx
    refine Option.eq_none_iff_forall_ne_some.mpr fun e he => ?_
    exact h.not_mem (congrArg Happening.ticket? (Happening.eq_left_of_waitEndOf? he)) ht hx

end Known

/-- Every ticket that a run gives out is that of one of its writes. -/
theorem exists_write_of_lt (actions : List Action) (hle : c.world.arrivals ≤ ticket)
    (hlt : ticket < (c.run actions).world.arrivals) :
    ∃ before session payload now after,
      actions = before ++ .write session payload now :: after ∧
        (c.run before).world.arrivals = ticket := by
  induction actions generalizing c with
  | nil => exact absurd hlt (Nat.not_lt.mpr hle)
  | cons a as ih =>
    by_cases hstep : (c.step a).world.arrivals ≤ ticket
    · obtain ⟨before, session, payload, now, after, heq, hticket⟩ := ih hstep hlt
      exact ⟨a :: before, session, payload, now, after, congrArg (a :: ·) heq, hticket⟩
    · have harrivals := arrivals_step (c := c) a
      cases a with
      | write session payload now =>
        refine ⟨[], session, payload, now, as, rfl, ?_⟩
        rw [harrivals] at hstep
        simp only [Action.isWrite, if_true] at hstep
        exact Nat.le_antisymm hle (Nat.le_of_lt_succ (Nat.lt_of_not_le hstep))
      | _ => exact absurd (harrivals ▸ hle) hstep

/-! ## What a write leaves when it comes -/

section Trails

variable (c session request now)

@[simp] theorem ledger_throttled (policy : Policy) :
    (c.throttled session request policy).world.ledger = c.world.ledger := rfl

@[simp] theorem report_throttled (policy : Policy) :
    (c.throttled session request policy).world.report session = c.world.report session := rfl

@[simp] theorem ledger_warn (t : Nat) :
    (c.warn t session now).world.ledger = c.world.ledger := by
  have hground := congrArg World.ledger (ground_warn c t session now)
  exact hground

@[simp] theorem marks_warnTrail (t : Nat) :
    (c.warnTrail t session now).filter (Happening.marks ticket) =
      if t = ticket then
        [.asked t now c.world.throttle.config.logInterval
          (c.world.throttle.gate.ask now c.world.throttle.config.logInterval).2]
      else [] := by
  unfold warnTrail
  dsimp only
  split <;> by_cases ht : t = ticket <;> simp [Happening.marks, ht]

@[simp] theorem eventsOf_warnTrail (t : Nat) :
    (c.warnTrail t session now).filterMap (Happening.eventOf? ticket) =
      if t = ticket ∧
          (c.world.throttle.gate.ask now c.world.throttle.config.logInterval).2 = true then
        [.warning (c.world.ledger.idOf session) (c.world.report session)]
      else [] := by
  unfold warnTrail
  dsimp only
  split <;> by_cases ht : t = ticket <;> simp [List.filterMap_cons, Happening.eventOf?, *]

@[simp] theorem waitEndsOf_warnTrail (t : Nat) :
    (c.warnTrail t session now).filterMap (Happening.waitEndOf? ticket) = [] :=
  warnTrail_eq c t session now (fun _ _ _ _ => rfl) (fun _ _ => rfl) (fun _ _ => rfl)

@[simp] theorem told_warnTrail (p : Event → Bool) (t : Nat) (past : List Happening) :
    told p (c.warnTrail t session now ++ past) =
      told p past +
        if (c.world.throttle.gate.ask now c.world.throttle.config.logInterval).2 then
          if p (.warning (c.world.ledger.idOf session) (c.world.report session)) then 1 else 0
        else 0 := by
  unfold warnTrail
  dsimp only
  split <;> rfl

/-- A warning that the gate admits is counted and told. -/
@[simp] theorem tally_warningsLogged_warnTrail (t : Nat) (past : List Happening) :
    tally .warningsLogged (c.warnTrail t session now ++ past) =
      tally .warningsLogged past +
        if (c.world.throttle.gate.ask now c.world.throttle.config.logInterval).2 then 1
        else 0 := by
  rw [tally_warnTrail]
  cases (c.world.throttle.gate.ask now c.world.throttle.config.logInterval).2 <;> rfl

end Trails

namespace Written

theorem marks_of_ne (h : Written c session request now c') (ht : c.world.arrivals ≠ ticket) :
    c'.past.filter (Happening.marks ticket) = c.past.filter (Happening.marks ticket) := by
  cases h <;> simp [Happening.marks, newWaiter, ht]

theorem eventsOf_of_ne (h : Written c session request now c') (ht : c.world.arrivals ≠ ticket) :
    c'.past.filterMap (Happening.eventOf? ticket) =
      c.past.filterMap (Happening.eventOf? ticket) := by
  cases h <;> simp [List.filterMap_cons, Happening.eventOf?, newWaiter, ht]

theorem waitEndsOf (h : Written c session request now c') :
    c'.past.filterMap (Happening.waitEndOf? ticket) =
      c.past.filterMap (Happening.waitEndOf? ticket) := by
  cases h <;> simp [List.filterMap_cons, Happening.waitEndOf?]

/-- What a throttle does with a new write goes by how it comes. -/
theorem marks_self (h : Written c session request now c')
    (hnone : c.past.filter (Happening.marks c.world.arrivals) = []) :
    c'.past.filter (Happening.marks c.world.arrivals) =
      (c.arrival session request now).marks c.world.throttle.config.logInterval
        (c.world.throttle.gate.ask now c.world.throttle.config.logInterval).2 := by
  cases h <;>
    simp [*, Happening.marks, newWaiter, arrival, Arrival.marks, Arrival.holds, Arrival.warns,
      Arrival.isThrottled, Policy.holds, Policy.warns]

/-- What the trace is told of a new write goes by how it comes and by the gate. -/
theorem eventsOf_self (h : Written c session request now c')
    (hnone : c.past.filterMap (Happening.eventOf? c.world.arrivals) = []) :
    c'.past.filterMap (Happening.eventOf? c.world.arrivals) =
      ((c.arrival session request now).opening (c.world.ledger.idOf session)
        (c.world.report session)
        (c.world.throttle.gate.ask now c.world.throttle.config.logInterval).2).reverse := by
  rw [Arrival.opening, List.reverse_append]
  cases h <;>
    simp [*, List.filterMap_cons, Happening.eventOf?, newWaiter, arrival, Arrival.holds,
      Arrival.warns, Policy.holds, Policy.warns]
  all_goals
    split <;> rfl

end Written

theorem Written.ledger (h : Written c session request now c') :
    c'.world.ledger = c.world.ledger := by
  have hground := congrArg World.ledger h.ground
  exact hground

theorem Passed.ledger (hp : Passed c w now c') : c'.world.ledger = c.world.ledger := by
  have hground := congrArg World.ledger hp.ground
  exact hground

theorem Passed.marks (hp : Passed c w now c') :
    c'.past.filter (Happening.marks ticket) = c.past.filter (Happening.marks ticket) := by
  cases hp <;> rfl

theorem Passed.eventsOf_of_ne (hp : Passed c w now c') (ht : w.ticket ≠ ticket) :
    c'.past.filterMap (Happening.eventOf? ticket) =
      c.past.filterMap (Happening.eventOf? ticket) := by
  cases hp <;> simp [List.filterMap_cons, Happening.eventOf?, releaseTrail, ht]

theorem Passed.waitEndsOf_of_ne (hp : Passed c w now c') (ht : w.ticket ≠ ticket) :
    c'.past.filterMap (Happening.waitEndOf? ticket) =
      c.past.filterMap (Happening.waitEndOf? ticket) := by
  cases hp with
  | stays _ => rfl
  | goesOn _ | givesUp _ _ _ | breaks _ =>
    simp [List.filterMap_cons, Happening.waitEndOf?, releaseTrail, ht]

/-! ## Actions and what they stir -/

/-- The course in which an action reaches the writes. -/
def prepared (c : Course) : Action → Course
  | .post entry => c.step (.post entry)
  | .configure change => c.step (.configure change)
  | .direct stage => c.step (.direct stage)
  | .write _ payload _ | .sent _ payload _ => c.issuing payload
  | .exception session cause _ => c.alarmed session cause
  | .expire _ _ | .wake _ | .closed _ _ => c

/-- An action changes what is around the writes, then stirs them, then answers its caller. -/
theorem stirs_step (h : Orderly c) (a : Action) :
    ∃ d, Stirs (c.prepared a) d ∧
      c.step a = { world := d.world, past := c.afterWake a ++ d.past } := by
  cases a with
  | post _ | configure _ | direct _ => exact ⟨_, .refl, rfl⟩
  | write session payload now => exact ⟨_, stirs_write session _ now, rfl⟩
  | expire ticket now => exact ⟨_, stirs_expire ticket now, rfl⟩
  | wake m | closed _ m => exact ⟨_, stirs_wake m h, rfl⟩
  | sent _ payload m => exact ⟨_, stirs_wake m (h.issuing payload), rfl⟩
  | exception session cause m => exact ⟨_, stirs_wake m (h.alarmed session cause), rfl⟩

/-! ## The events of one write -/

/-- A write that has come keeps its marks. The trace was told what it is told when the write
comes, and then that the writer was released if its wait has ended, under one identity; how long
it waited is left out. -/
structure Recounts (ticket : Nat) (id : SessionId) (marks : List Happening)
    (opening : List Event) (c : Course) : Prop where
  given : ticket < c.world.arrivals
  marked : c.past.filter (Happening.marks ticket) = marks
  traced : (c.past.filterMap (Happening.eventOf? ticket)).map Event.untimed =
    (c.past.filterMap (Happening.waitEndOf? ticket)).map (.released id .zero) ++ opening.reverse
  signed : ∀ w ∈ c.world.throttle.waiting, w.ticket = ticket → c.world.ledger.Names w.session id

namespace Recounts

variable {id : SessionId} {marks : List Happening} {opening : List Event}

theorem written (h : Recounts ticket id marks opening c)
    (hw : Written c session request now c') : Recounts ticket id marks opening c' := by
  have hne : c.world.arrivals ≠ ticket := Nat.ne_of_gt h.given
  constructor
  case given => exact hw.arrivals ▸ Nat.lt_succ_of_lt h.given
  case marked => rw [hw.marks_of_ne hne, h.marked]
  case traced => rw [hw.eventsOf_of_ne hne, hw.waitEndsOf, h.traced]
  case signed =>
    intro w hmem ht
    rw [hw.ledger]
    rcases (Move.write hw).mem_waiting hmem with hmem | hnew
    · exact h.signed w hmem ht
    · exact absurd (hnew.symm.trans ht) hne

theorem passed (h : Recounts ticket id marks opening c) (hw : w ∈ c.world.throttle.waiting)
    (hp : Passed c w now c') : Recounts ticket id marks opening c' := by
  constructor
  case given => exact hp.arrivals ▸ h.given
  case marked => rw [hp.marks, h.marked]
  case traced =>
    by_cases ht : w.ticket = ticket
    · -- the event of a release names the session as it was named when the writer was held
      have hid : c.world.ledger.idOf w.session = id := (h.signed w hw ht).idOf
      have htraced := h.traced
      cases hp with
      | stays _ => exact htraced
      | goesOn _ | givesUp _ _ _ | breaks _ =>
        simp [List.filterMap_cons, Happening.eventOf?, Happening.waitEndOf?, Event.untimed,
          releaseTrail, ht, hid, htraced]
    · rw [hp.eventsOf_of_ne ht, hp.waitEndsOf_of_ne ht, h.traced]
  case signed =>
    intro v hv ht
    rw [hp.ledger]
    exact h.signed v (hp.waiting_subset hv) ht

theorem stirs (h : Recounts ticket id marks opening c) {d : Course} (hs : Stirs c d) :
    Recounts ticket id marks opening d := by
  induction hs with
  | refl => exact h
  | tail _ hstir ih =>
    cases hstir with
    | write hw => exact ih.written hw
    | pass hw hp => exact ih.passed hw hp
    | wakeup _ => exact ⟨ih.given, ih.marked, ih.traced, ih.signed⟩

/-- What an action changes around the writes leaves sessions their identities. -/
theorem prepared (h : Recounts ticket id marks opening c) (a : Action) :
    Recounts ticket id marks opening (c.prepared a) := by
  cases a with
  | post entry =>
    exact ⟨h.given, h.marked, h.traced, fun w hw ht => (h.signed w hw ht).post entry⟩
  | exception session cause m =>
    refine ⟨h.given, h.marked, h.traced, fun w hw ht => ?_⟩
    exact Scene.ledger_drain (s := c.world.scene) (P := fun l => l.Names w.session id)
      (fun _ e hnames => hnames.post e) (h.signed w hw ht)
  | configure _ | direct _ | write _ _ _ | expire _ _ | wake _ | sent _ _ _ | closed _ _ =>
    exact ⟨h.given, h.marked, h.traced, h.signed⟩

theorem step (h : Recounts ticket id marks opening c) (ho : Orderly c) (a : Action) :
    Recounts ticket id marks opening (c.step a) := by
  obtain ⟨d, hstirs, heq⟩ := stirs_step ho a
  have hd : Recounts ticket id marks opening d := (h.prepared a).stirs hstirs
  rw [heq]
  cases a <;> exact ⟨hd.given, hd.marked, hd.traced, hd.signed⟩

theorem run (h : Recounts ticket id marks opening c) (ho : Orderly c) (actions : List Action) :
    Recounts ticket id marks opening (c.run actions) := by
  induction actions generalizing c with
  | nil => exact h
  | cons a as ih => exact ih (h.step ho a) (ho.step a)

end Recounts

/-- A write that comes is recounted from then on. -/
theorem recounts_write (ho : Orderly c) (hknown : Known c) (session : Nat) (request : Request)
    (now : Instant) :
    let a := c.arrival session request now
    let interval := c.world.throttle.config.logInterval
    let admitted := (c.world.throttle.gate.ask now interval).2
    let id := c.world.ledger.idOf session
    Recounts a.ticket id (a.marks interval admitted)
      (a.opening id (c.world.report session) admitted) (c.write session request now) := by
  intro a interval admitted id
  obtain ⟨hmarks, hevents, hends⟩ := hknown.fresh (Nat.le_refl c.world.arrivals)
  have hwritten : ∀ {d}, Written c session request now d →
      Recounts a.ticket id (a.marks interval admitted)
        (a.opening id (c.world.report session) admitted) d := by
    intro d hw
    constructor
    case given => exact hw.arrivals ▸ Nat.lt_succ_self _
    case marked => exact hw.marks_self hmarks
    case traced =>
      have hnone : d.past.filterMap (Happening.waitEndOf? a.ticket) = [] := hw.waitEndsOf.trans hends
      have hopened := hw.eventsOf_self hevents
      rw [hnone, ← a.untimed_opening, ← List.map_reverse]
      exact congrArg (List.map Event.untimed) hopened
    case signed =>
      intro w hmem ht
      rw [hw.ledger]
      rcases hw.mem_waiting hmem with hold | ⟨rfl, hv⟩
      · exact absurd (ho.given w hold) (ht ▸ Nat.lt_irrefl _)
      · exact World.names_of_flooded hv
  rcases written_write c session request now with hw | ⟨d, hw, hwaiting, heq⟩
  · exact hwritten hw
  · rw [heq]
    refine (hwritten hw).passed ?_ (passed_pass d _ now)
    rw [hwaiting]
    exact List.mem_append_right _ (List.mem_singleton.mpr rfl)

/-! ## Numbers of events -/

/-- The numbers of events of each kind go with the counters and with the writers held. -/
structure Accounted (c : Course) : Prop where
  warned : told Event.isWarning c.past = tally .warningsLogged c.past
  released : told Event.isReleased c.past = tally .blockedWrites c.past
  timedOut : told Event.isTimeout c.past = tally .timedOutWrites c.past
  holding : told Event.isHolding c.past =
    told Event.isReleased c.past + c.world.throttle.waiting.length + (brokenOff c.past).length

namespace Accounted

theorem start (s : Settings) : Accounted (start s) := ⟨rfl, rfl, rfl, rfl⟩

theorem written (h : Accounted c) (hw : Written c session request now c') : Accounted c' := by
  obtain ⟨hwarned, hreleased, htimedOut, hholding⟩ := h
  cases hw with
  | untouched hp | ready hp hv | lost hp hv => exact ⟨hwarned, hreleased, htimedOut, hholding⟩
  | rejected hp hv | waits hp hv =>
    constructor <;>
      simp [told, tally, brokenOff, Record.meter, Event.isWarning, Event.isReleased,
        Event.isTimeout, Event.isHolding] <;> omega
  | passes hp hv | warnsAndWaits hp hv =>
    cases hask : (c.world.throttle.gate.ask now c.world.throttle.config.logInterval).2 <;>
      constructor <;>
      simp [told, tally, brokenOff, Record.meter, Event.isWarning, Event.isReleased,
        Event.isTimeout, Event.isHolding, hask] <;> omega

theorem passed (h : Accounted c) (ho : Orderly c) (hw : w ∈ c.world.throttle.waiting)
    (hp : Passed c w now c') : Accounted c' := by
  obtain ⟨hwarned, hreleased, htimedOut, hholding⟩ := h
  have hlength := ho.length_filter_ticket hw
  cases hp with
  | stays hk => exact ⟨hwarned, hreleased, htimedOut, hholding⟩
  | goesOn hv | givesUp hv hd hn | breaks hv =>
    constructor <;>
      simp [releaseTrail, told, tally, brokenOff, Record.meter, Event.isWarning,
        Event.isReleased, Event.isTimeout, Event.isHolding] <;> omega

theorem move (ho : Orderly c) (h : Accounted c) (hm : Move c c') : Accounted c' := by
  cases hm with
  | write hw => exact h.written hw
  | pass hw hp => exact h.passed ho hw hp
  | surround _ _ _ _ | wakeup _ | call _ | answer _ =>
    exact ⟨h.warned, h.released, h.timedOut, h.holding⟩

end Accounted

/-! ## Times of waits -/

/-- The times that the trace was told of are those that were counted, in order. -/
def Timed (c : Course) : Prop :=
  c.past.filterMap Happening.waitTold? = c.past.filterMap Happening.waitCounted?

namespace Timed

/-- A warning tells of no wait and counts none. -/
theorem warn (h : Timed c) (t session : Nat) (now : Instant) : Timed (c.warn t session now) := by
  have htimed : c.past.filterMap Happening.waitTold? = c.past.filterMap Happening.waitCounted? := h
  rw [Timed, past_warn]
  unfold warnTrail
  dsimp only
  split <;> exact htimed

theorem written (h : Timed c) (hw : Written c session request now c') : Timed c' := by
  cases hw with
  | untouched hp | ready hp hv | lost hp hv | rejected hp hv | waits hp hv => exact h
  | passes hp hv =>
    have hthrottled : Timed (c.throttled session request .log) := h
    exact hthrottled.warn c.world.arrivals session now
  | warnsAndWaits hp hv =>
    have hthrottled : Timed (c.throttled session request .logAndBlock) := h
    exact hthrottled.warn c.world.arrivals session now

theorem passed (h : Timed c) (hp : Passed c w now c') : Timed c' := by
  cases hp with
  | stays _ | breaks _ => exact h
  | goesOn _ | givesUp _ _ _ => exact congrArg (Duration.ofNanos (now - w.start) :: ·) h

theorem move (_ : Orderly c) (h : Timed c) (hm : Move c c') : Timed c' := by
  cases hm with
  | surround _ _ _ _ | wakeup _ | call _ | answer _ => exact h
  | write hw => exact h.written hw
  | pass _ hp => exact h.passed hp

end Timed

/-! ## Runs -/

/-- A write is recounted in every course after it. -/
theorem recounts_run (s : Settings) (before after : List Action) (session : Nat)
    (payload : Payload) (now : Instant) :
    let c := (start s).run before
    let a := c.arrival session (c.world.issue payload).1 now
    let interval := c.world.throttle.config.logInterval
    let admitted := (c.world.throttle.gate.ask now interval).2
    let id := c.world.ledger.idOf session
    Recounts a.ticket id (a.marks interval admitted)
      (a.opening id (c.world.report session) admitted)
      ((start s).run (before ++ .write session payload now :: after)) := by
  intro c a interval admitted id
  have ho : Orderly c := orderly_run s before
  have hknown : Known (c.issuing payload) := Known.run s before
  rw [run_append, run_cons]
  exact (recounts_write (ho.issuing payload) hknown session _ now).run
    (ho.step (.write session payload now)) after

theorem Recounts.eventsOf {id : SessionId} {marks : List Happening} {opening : List Event}
    (h : Recounts ticket id marks opening c) :
    (c.eventsOf ticket).map Event.untimed =
      opening ++ (c.waitEndsOf ticket).map (.released id .zero) := by
  rw [eventsOf_eq, waitEndsOf_eq, List.map_reverse, h.traced, List.reverse_append,
    List.reverse_reverse, List.map_reverse]

/-- What marks a write is in the past if it was when the write came. -/
theorem Recounts.mem_iff {id : SessionId} {marks : List Happening} {opening : List Event}
    (h : Recounts ticket id marks opening c) {x : Happening} (hx : x.marks ticket = true) :
    x ∈ c.past ↔ x ∈ marks := by
  rw [← h.marked, List.mem_filter, and_iff_left hx]

theorem mem_waitEndsOf {e : WaitEnd} :
    e ∈ c.waitEndsOf ticket ↔ .left ticket (some e) ∈ c.past := by
  rw [waitEndsOf_eq, List.mem_reverse, List.mem_filterMap]
  constructor
  · rintro ⟨x, hx, he⟩
    exact Happening.eq_left_of_waitEndOf? he ▸ hx
  · intro hx
    exact ⟨_, hx, if_pos rfl⟩

/-- The wait of a write ends once at most. -/
theorem Meets.length_waitEndsOf {a : Arrival} {f : Fate} (h : Meets a f c) :
    (c.waitEndsOf a.ticket).length ≤ 1 := by
  have hview : c.waitEndsOf a.ticket =
      (c.story a.ticket).reverse.filterMap fun x => x.waitEnd?.map Prod.snd := by
    refine view_eq_of_bears fun x y hy => ?_
    cases x with
    | left t e =>
      cases e with
      | none => cases hy
      | some e =>
        cases hy
        rfl
    | _ => cases hy
  rw [hview, h.told]
  cases f <;> simp [Happening.waitEnd?]

/-- In every course of a run the events of each write are those that its story asks for, in
this order. It is warned about exactly if it was throttled under a policy that warns and the
gate admitted it. It is told to be held exactly if its writer started to wait, and to be
released exactly if this wait ended without being broken off, with the end of the wait; both in
the span of its session. All of them name the session by the identity that it had when the write
came, and there is nothing else in the trace. The numbers of warnings, of releases and of those
that timed out are what the counters show, as far as a word can hold them, and the writers told
to be held that were not told to be released still wait or were broken off. The times that the
releases tell are those that are counted for them, one by one. -/
theorem events_follow_writes (s : Settings) (actions : List Action) :
    let d := (start s).run actions
    let n := d.world.throttle.metrics.counters
    let count (p : Event → Bool) := d.events.countP fun x => p x.2
    (∀ before session payload now after,
        actions = before ++ .write session payload now :: after →
        let c := (start s).run before
        let a := c.arrival session (c.world.issue payload).1 now
        let id := c.world.ledger.idOf session
        let span := "block:session=" ++ id.text
        let warned := a.policy.warns && a.verdict == .flooded &&
          c.world.throttle.gate.admits now c.world.throttle.config.logInterval
        let held := a.policy.holds && a.verdict == .flooded
        (d.eventsOf a.ticket).map Event.fields =
            (if warned then
              [[("level", "WARN"), ("message", c.world.report session), ("session", id.text)]]
            else []) ++
            (if held then
              [[("level", "DEBUG"),
                ("message", "Blocking writer until scheduled writes drain"), ("span", span)]]
            else []) ++
            (d.waitEndsOf a.ticket).map (fun e =>
              [("level", "DEBUG"), ("message", "Writer released"), ("outcome", e.text),
               ("span", span)]) ∧
          (warned = true ↔
            (∃ p, (p = .log ∨ p = .logAndBlock) ∧ .throttled a.ticket p ∈ d.past) ∧
              ∃ m i, .asked a.ticket m i true ∈ d.past) ∧
          (held = true ↔ ∃ b, .entered a.ticket b ∈ d.past) ∧
          (∀ e, e ∈ d.waitEndsOf a.ticket ↔ .left a.ticket (some e) ∈ d.past) ∧
          (d.waitEndsOf a.ticket).length ≤ 1) ∧
      (∀ t e, (t, e) ∈ d.events →
        ∃ before session payload now after,
          actions = before ++ .write session payload now :: after ∧
            t = ((start s).run before).world.arrivals) ∧
      n.warningsLogged = UInt64.ofNat (count Event.isWarning) ∧
      n.blockedWrites = UInt64.ofNat (count Event.isReleased) ∧
      n.timedOutWrites = UInt64.ofNat (count Event.isTimeout) ∧
      (actions.length < UInt64.size →
        n.warningsLogged.toNat = count Event.isWarning ∧
          n.blockedWrites.toNat = count Event.isReleased ∧
          n.timedOutWrites.toNat = count Event.isTimeout) ∧
      count Event.isHolding =
        count Event.isReleased + d.world.throttle.metrics.currentWaiters +
          (brokenOff d.past).length ∧
      d.events.filterMap (·.2.waited?) = d.happened.filterMap Happening.waitCounted? := by
  intro d n count
  have haccounted : Accounted d :=
    invariant_run (P := Accounted) Accounted.move (.start s) (.start s) actions
  have hcounted : Counted d := Counted.run s actions
  have hknown : Known d := Known.run s actions
  have horderly : Orderly d := orderly_run s actions
  have hcount : ∀ p, count p = told p d.past := countP_events d
  have htimed : Timed d := invariant_run (P := Timed) Timed.move (.start s) rfl actions
  refine ⟨?_, ?_, ?_, ?_, ?_, ?_, ?_, ?_⟩
  · rintro before session payload now after rfl c a id span warned held
    let interval := c.world.throttle.config.logInterval
    let admitted := (c.world.throttle.gate.ask now interval).2
    have hrecounts := recounts_run s before after session payload now
    obtain ⟨f, hmeets⟩ := meets_run s before after session payload now
    have hmarks : ∀ {x : Happening}, x.marks a.ticket = true →
        (x ∈ d.past ↔ x ∈ a.marks interval admitted) := fun hx => hrecounts.mem_iff hx
    have hwarned : warned = (a.warns && admitted) := congrArg (a.warns && ·) (WarnGate.ask_snd ..).symm
    refine ⟨?_, ?_, ?_, fun e => mem_waitEndsOf, hmeets.length_waitEndsOf⟩
    · have hfields : (d.eventsOf a.ticket).map Event.fields =
          ((d.eventsOf a.ticket).map Event.untimed).map Event.fields := by
        rw [List.map_map]
        exact List.map_congr_left fun e _ => (Event.fields_untimed e).symm
      rw [hfields, hrecounts.eventsOf, List.map_append, Arrival.fields_opening, hwarned,
        List.map_map]
      rfl
    · rw [hwarned, a.warned_iff_marks interval admitted]
      refine and_congr (exists_congr fun p => and_congr_right' (hmarks ?_).symm)
        (exists_congr fun m => exists_congr fun i => (hmarks ?_).symm)
      · exact beq_self_eq_true a.ticket
      · exact beq_self_eq_true a.ticket
    · refine (a.holds_iff_marks interval admitted).trans (exists_congr fun b => (hmarks ?_).symm)
      exact beq_self_eq_true a.ticket
  · intro t e hm
    have hgiven : t < d.world.arrivals := hknown _ (mem_events.mp hm) t rfl
    obtain ⟨before, session, payload, now, after, heq, ht⟩ :=
      exists_write_of_lt actions (Nat.zero_le t) hgiven
    exact ⟨before, session, payload, now, after, heq, ht.symm⟩
  · rw [hcount, haccounted.warned]
    exact hcounted .warningsLogged
  · rw [hcount, haccounted.released]
    exact hcounted .blockedWrites
  · rw [hcount, haccounted.timedOut]
    exact hcounted .timedOutWrites
  · intro hfew
    have hexact : ∀ m : Meter, (m.ofCounters n).toNat = tally m d.past := fun m =>
      hcounted.toNat_eq (Nat.lt_of_le_of_lt (tally_le_length s actions m) hfew)
    rw [hcount, hcount, hcount, haccounted.warned, haccounted.released, haccounted.timedOut]
    exact ⟨hexact .warningsLogged, hexact .blockedWrites, hexact .timedOutWrites⟩
  · have hwaiters : d.world.throttle.metrics.currentWaiters = d.world.throttle.waiting.length :=
      horderly.counted
    rw [hcount, hcount, hwaiters]
    exact haccounted.holding
  · rw [events, List.filterMap_filterMap, happened, List.filterMap_reverse, List.filterMap_reverse]
    exact congrArg List.reverse htimed

/-- The first of three writers is warned about and held until its wait times out. -/
theorem events_follow_writes_threeWaits :
    let before := (start
      { policy := .logAndBlock, limits := ⟨1, 0, 0, 0⟩, logInterval := .ofNanos 10
        blockTimeout := some (.ofNanos 5) }).run (threeWaits.take 7)
    let id := before.world.ledger.idOf 0
    let span := "block:session=" ++ id.text
    id = ⟨1⟩ ∧
      (threeWaitsEnd.eventsOf 0).map Event.fields =
        [[("level", "WARN"), ("message", before.world.report 0), ("session", id.text)],
         [("level", "DEBUG"), ("message", "Blocking writer until scheduled writes drain"),
          ("span", span)],
         [("level", "DEBUG"), ("message", "Writer released"), ("outcome", "TimedOut"),
          ("span", span)]] ∧
      threeWaitsEnd.world.throttle.metrics.counters.timedOutWrites.toNat =
        threeWaitsEnd.events.countP fun x => x.2.isTimeout := by
  intro before id span
  obtain ⟨hwrites, -, -, -, -, hcounters, -, -⟩ :=
    events_follow_writes
      { policy := .logAndBlock, limits := ⟨1, 0, 0, 0⟩, logInterval := .ofNanos 10
        blockTimeout := some (.ofNanos 5) } threeWaits
  have hends : threeWaitsEnd.waitEndsOf 0 = [.timedOut] := by decide +kernel
  have hfirst := (hwrites (threeWaits.take 7) 0 [1] 5 (threeWaits.drop 8) rfl).1
  refine ⟨by decide +kernel, hfirst.trans ?_, (hcounters (by decide)).2.2⟩
  rw [if_pos, if_pos]
  · exact congrArg (fun ends => _ ++ List.map _ ends) hends
  · decide +kernel
  · decide +kernel

end Course

end Pipeline

end Backpressure
