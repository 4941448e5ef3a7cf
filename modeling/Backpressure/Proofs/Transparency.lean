import Backpressure.Proofs.Closing
import Backpressure.Proofs.WakeOrder
set_option autoImplicit false

/-!
# Where a throttle is transparent

A write that needs no throttling goes through a throttle as if there were none: it reaches the
next stage once, ends as that stage answers, and leaves everything that the throttle keeps and
tells as it was. So do the other hooks, but for the wake that comes with them: each hands its
call on once and gives back what the next stage answered, whatever comes of the writers that
the wake lets go. With no writer held they change nothing.
-/

namespace Backpressure

/-- What is no wake leaves the count of wakes as it is. -/
theorem Counters.wakeups_recordAll {c : Counters} {rs : List Record} (h : .wakeup ∉ rs) :
    (c.recordAll rs).wakeups = c.wakeups := by
  induction rs generalizing c with
  | nil => rfl
  | cons r rs ih =>
    rw [List.mem_cons, not_or] at h
    rw [recordAll_cons, ih h.2]
    rcases r with _ | (_ | _) | _ | _ | _ | _
    all_goals first | rfl | exact absurd rfl h.1

namespace Pipeline

/-! ## Views -/

/-- The call of the next stage, if it is for no write. -/
def Happening.outsideCall? : Happening → Option Call
  | forwarded none c => some c
  | _ => none

namespace Course

variable {c c' : Course} {x : Waiter} {session : Nat} {request : Request} {now : Instant}

/-- The looks that were taken at sessions, in order. -/
def looks (c : Course) : List Happening := c.happened.filter Happening.isLook

/-- The outcomes of the calls from outside that are no writes, in order. -/
def answers (c : Course) : List Outcome := c.happened.filterMap Happening.answer?

/-- The calls of the next stage that are for no write, in order. -/
def outsideCalls (c : Course) : List Call := c.happened.filterMap Happening.outsideCall?

/-! ## Writes that need no throttling -/

section Passes

variable (hpass : c.world.throttle.config.policy = .off ∨ c.world.verdict session = .ready)
include hpass

theorem calls_write_of_passes :
    (c.write session request now).calls =
      c.calls ++ [(some c.world.arrivals, .write session request)] := by
  rw [calls, happened_write_of_passes hpass, List.append_assoc, List.filterMap_append]
  split <;> rfl

theorem endings_write_of_passes :
    (c.write session request now).endings =
      c.endings ++ [(c.world.arrivals,
        .forwarded (c.world.stage.outcome (.write session request)))] := by
  rw [endings, happened_write_of_passes hpass, List.append_assoc, List.filterMap_append]
  split <;> rfl

end Passes

/-- Under the policy that does nothing no session is looked at. -/
theorem looks_write_of_off (hoff : c.world.throttle.config.policy = .off) :
    (c.write session request now).looks = c.looks := by
  rw [looks, happened_write_of_passes (.inl hoff), if_pos hoff, List.filter_append,
    List.filter_append]
  simp [looks, Happening.isLook]

theorem Orderly.write (h : Orderly c) (session : Nat) (request : Request) (now : Instant) :
    Orderly (c.write session request now) := h.moves (stirs_write session request now).moves

/-- Writers that are held in two courses with the same scene fare the same in both. -/
theorem fares_alike (h : Orderly c) (h' : Orderly c') (hscene : c'.world.scene = c.world.scene)
    (hx : x ∈ c.world.throttle.waiting) (hx' : x ∈ c'.world.throttle.waiting)
    (hends : c'.endingsOf x.ticket = c.endingsOf x.ticket) (as : List Action) :
    (x ∈ (c'.run as).world.throttle.waiting ↔ x ∈ (c.run as).world.throttle.waiting) ∧
      (c'.run as).endingsOf x.ticket = (c.run as).endingsOf x.ticket := by
  obtain ⟨hheld, hended⟩ := outcome_run h hx as
  obtain ⟨hheld', hended'⟩ := outcome_run h' hx' as
  rw [hheld', hended', hscene, hends]
  exact ⟨hheld.symm, hended.symm⟩

/-- Whatever a run has come to, a write under the policy that does nothing, or on a session
that is ready, is one call of the next stage and ends as that call does. Of everything around
it only the number of writes has changed: not the throttle with its configuration, gate, held
writers and counters, and neither what a recorder nor what a trace was told. Under the policy
that does nothing no reading of a session is taken. The writers that are held fare in every
continuation as they would have fared without the write. -/
theorem unthrottled_write_is_transparent (s : Settings) (actions : List Action) (session : Nat)
    (request : Request) (now : Instant) :
    let c := (Course.start s).run actions
    let d := c.write session request now
    let call := Call.write session request
    let ticket := c.world.arrivals
    c.world.throttle.config.policy = .off ∨ c.world.verdict session = .ready →
      d.calls = c.calls ++ [(some ticket, call)] ∧
        d.endings = c.endings ++ [(ticket, .forwarded (c.world.stage.outcome call))] ∧
        d.world = { c.world with arrivals := ticket + 1 } ∧
        d.world.throttle = c.world.throttle ∧
        Export.ofSignals d.signals = Export.ofSignals c.signals ∧ d.signals = c.signals ∧
        d.events = c.events ∧
        (c.world.throttle.config.policy = .off → d.looks = c.looks) ∧
        ∀ after, ∀ x ∈ c.world.throttle.waiting,
          (x ∈ (d.run after).world.throttle.waiting ↔
            x ∈ (c.run after).world.throttle.waiting) ∧
          (d.run after).endingsOf x.ticket = (c.run after).endingsOf x.ticket := by
  intro c d call ticket hpass
  have ho : Orderly c := orderly_run s actions
  have hworld : d.world = { c.world with arrivals := ticket + 1 } := world_write_of_passes hpass
  have hthrottle : d.world.throttle = c.world.throttle := by rw [hworld]
  have hsignals : d.signals = c.signals := signals_write_of_passes hpass
  refine ⟨calls_write_of_passes hpass, endings_write_of_passes hpass, hworld, hthrottle,
    congrArg Export.ofSignals hsignals, hsignals, events_write_of_passes hpass,
    looks_write_of_off, fun after x hx => ?_⟩
  have hscene : d.world.scene = c.world.scene := by
    rw [hworld]
    rfl
  have hends : d.endingsOf x.ticket = c.endingsOf x.ticket :=
    endingsOf_write_of_ne (Nat.ne_of_gt (ho.given x hx))
  exact fares_alike ho (ho.write session request now) hscene hx (hthrottle ▸ hx) hends after

/-- Two writers are held; then the second one's session is lost, the next stage crashes at
writes, and the policy is switched off. A write on the lost session reaches the next stage and
crashes there; the held writers do not notice. -/
theorem unthrottled_write_is_transparent_lost :
    let s : Settings := { policy := .block, limits := ⟨1, 0, 0, 0⟩ }
    let c := (Course.start s).run (holdTwo ++ [.post (.lose 1),
      .direct { write := .crash "down" }, .configure (.policy .off)])
    let d := c.write 1 ⟨3, [9]⟩ 10
    c.world.verdict 1 = .unreadable ∧ d.calls = [(some 2, .write 1 ⟨3, [9]⟩)] ∧
      d.endings = [(2, .forwarded (.crashed "down"))] ∧
      d.world.throttle = c.world.throttle ∧ d.looks = c.looks ∧
      (d.run [.wake { now := 11 }]).endingsOf 1 = [.lost] := by
  intro s c d
  obtain ⟨hcalls, hendings, -, hthrottle, -, -, -, hlooks, hheld⟩ :=
    unthrottled_write_is_transparent s (holdTwo ++ [.post (.lose 1),
      .direct { write := .crash "down" }, .configure (.policy .off)]) 1 ⟨3, [9]⟩ 10
      (.inl (by decide))
  have hwaiting : ⟨1, 1, ⟨2, [8]⟩, 6, none⟩ ∈ c.world.throttle.waiting := by decide
  refine ⟨by decide, hcalls.trans (by decide), hendings.trans (by decide), hthrottle,
    hlooks (by decide), ?_⟩
  exact (hheld [.wake { now := 11 }] ⟨1, 1, ⟨2, [8]⟩, 6, none⟩ hwaiting).2.trans (by decide)

end Course

/-! ## What a wake does -/

/-- What happens when a wake reaches the held writers of a world, in order. -/
def World.wakeTrail (v : World) (m : Moment) : List Happening :=
  if v.throttle.waiting = [] then []
  else
    .recorded .wakeup ::
      (arrange m.first v.throttle.waiting).flatMap fun x => v.scene.trail x (m.turn x.ticket)

/-- What the throttle counts when a pass lets a writer go. -/
def Scene.counted (s : Scene) (x : Waiter) (now : Instant) : List Record :=
  match s.settle x now with
  | some (.forwarded _) => [.blocked (Duration.ofNanos (now - x.start))]
  | some (.refused _) => [.blocked (Duration.ofNanos (now - x.start)), .timedOut]
  | some .lost | none => []

/-- The throttle of a world after a wake: it has counted the wake if there was a writer to be
woken; the writers that a pass in their turn does not leave held are let go, and what that
counts is counted. -/
def World.throttleWoken (v : World) (turn : Nat → Instant) : Throttle :=
  let t := v.throttle
  let stay := t.waiting.filter fun x => v.keeps x (turn x.ticket)
  let gone := t.waiting.filter fun x => !v.keeps x (turn x.ticket)
  let counted := if t.waiting = [] then t.counters else t.counters.record .wakeup
  { t with
    held := stay.length
    waiting := stay
    counters := counted.recordAll (gone.flatMap fun x => v.scene.counted x (turn x.ticket)) }

namespace Scene

variable {s : Scene} {x : Waiter} {now : Instant}

theorem record_trail (s : Scene) (x : Waiter) (now : Instant) :
    (s.trail x now).filterMap Happening.record? = s.counted x now := by
  unfold trail counted settle
  split <;> rfl

/-- What happens in a pass is about its writer: it calls the next stage for no other purpose and
answers no call from outside. -/
theorem outside_trail (s : Scene) (x : Waiter) (now : Instant) :
    (s.trail x now).filterMap Happening.outsideCall? = [] ∧
      (s.trail x now).filterMap Happening.answer? = [] := by
  unfold trail
  split <;> exact ⟨rfl, rfl⟩

theorem counted_of_stays (h : s.settle x now = none) : s.counted x now = [] := by
  rw [counted, h]

theorem wakeup_not_mem_counted : Record.wakeup ∉ s.counted x now := by
  unfold counted
  split <;> simp

end Scene

/-- What neither a wake itself nor a pass shows a wake does not show. -/
theorem World.filterMap_wakeTrail {α : Type} {f : Happening → Option α} {v : World} {m : Moment}
    (hwakeup : f (.recorded .wakeup) = none)
    (htrail : ∀ x now, (v.scene.trail x now).filterMap f = []) :
    (v.wakeTrail m).filterMap f = [] := by
  unfold wakeTrail
  split
  · rfl
  · rw [List.filterMap_cons_none hwakeup, List.filterMap_flatMap]
    exact List.flatMap_eq_nil_iff.mpr fun x _ => htrail x _

namespace Course

variable {c : Course} {session : Nat} {m : Moment}

theorem wake_of_nil (h : Orderly c) (hnone : c.world.throttle.waiting = []) (m : Moment) :
    c.wake m = c := by
  have hheld : c.world.throttle.held = 0 := by
    rw [h.counted, hnone]
    rfl
  rw [wake, if_pos hheld]

theorem wake_of_ne_nil (h : Orderly c) (hsome : c.world.throttle.waiting ≠ []) (m : Moment) :
    c.wake m =
      (c.record .wakeup).passAll (arrange m.first c.world.throttle.waiting) m.turn := by
  have hheld : c.world.throttle.held ≠ 0 := by
    rw [h.counted]
    exact mt List.length_eq_zero_iff.mp hsome
  rw [wake, if_neg hheld]

theorem happened_wake (h : Orderly c) (m : Moment) :
    (c.wake m).happened = c.happened ++ c.world.wakeTrail m := by
  unfold World.wakeTrail
  split
  · rename_i hnone
    rw [wake_of_nil h hnone, List.append_nil]
  · rename_i hsome
    have hcounted : (c.record .wakeup).happened = c.happened ++ [.recorded .wakeup] := by
      simp [happened]
    rw [wake_of_ne_nil h hsome, happened_passAll, hcounted, List.append_assoc]
    rfl

/-- The writers that stay add nothing to what is counted. -/
theorem flatMap_counted (v : World) (ws : List Waiter) (turn : Nat → Instant) :
    (ws.filter fun x => !v.keeps x (turn x.ticket)).flatMap
        (fun x => v.scene.counted x (turn x.ticket)) =
      ws.flatMap fun x => v.scene.counted x (turn x.ticket) := by
  induction ws with
  | nil => rfl
  | cons w ws ih =>
    by_cases hk : v.keeps w (turn w.ticket) = true
    · have hstays : v.scene.settle w (turn w.ticket) = none := (keeps_iff_settle (c := ⟨v, []⟩)).mp hk
      rw [List.filter_cons_of_neg (by simp [hk]), ih, List.flatMap_cons,
        Scene.counted_of_stays hstays, List.nil_append]
    · rw [List.filter_cons_of_pos (by simp [hk]), List.flatMap_cons, ih, List.flatMap_cons]

theorem counters_wake (h : Orderly c) (m : Moment) :
    (c.wake m).world.throttle.counters = (c.world.throttleWoken m.turn).counters := by
  unfold World.throttleWoken
  dsimp only
  by_cases hnone : c.world.throttle.waiting = []
  · rw [wake_of_nil h hnone, hnone, if_pos rfl]
    rfl
  · -- the passes count in the order in which the writers are woken, which makes no difference
    have hrecords : ((arrange m.first c.world.throttle.waiting).flatMap
        fun x => c.world.scene.trail x (m.turn x.ticket)).filterMap Happening.record? =
        (arrange m.first c.world.throttle.waiting).flatMap
          fun x => c.world.scene.counted x (m.turn x.ticket) := by
      rw [List.filterMap_flatMap]
      simp only [Scene.record_trail]
    have hperm := (perm_arrange m.first c.world.throttle.waiting).flatMap_right
      fun x => c.world.scene.counted x (m.turn x.ticket)
    rw [wake_of_ne_nil h hnone, counters_passAll, flatMap_counted, if_neg hnone]
    exact (congrArg _ hrecords).trans (Counters.recordAll_perm _ hperm)

theorem world_wake (h : Orderly c) (m : Moment) :
    (c.wake m).world = { c.world with throttle := c.world.throttleWoken m.turn } := by
  have hwaiting := waiting_wake h m
  have hheld : (c.wake m).world.throttle.held = (c.wake m).world.throttle.waiting.length :=
    (h.moves (stirs_wake m h).moves).counted
  refine World.ext_ground (ground_wake m) ?_ (hheld.trans (congrArg List.length hwaiting))
    hwaiting (counters_wake h m)
  exact reading_wake (f := fun c => c.world.throttle.gate) Passed.gate (fun _ => rfl) m

theorem wakeups_throttleWoken (v : World) (turn : Nat → Instant) :
    (v.throttleWoken turn).counters.wakeups =
      v.throttle.counters.wakeups + if v.throttle.waiting = [] then 0 else 1 := by
  unfold World.throttleWoken
  dsimp only
  rw [Counters.wakeups_recordAll]
  · split
    · exact (UInt64.add_zero _).symm
    · rfl
  · intro hmem
    obtain ⟨x, -, hx⟩ := List.mem_flatMap.mp hmem
    exact Scene.wakeup_not_mem_counted hx

/-- A wake that lets nobody go does nothing but count itself, if it finds a writer. -/
theorem throttleWoken_of_keeps (h : Orderly c) {v : World} (hv : v.throttle = c.world.throttle)
    {turn : Nat → Instant}
    (hkeeps : ∀ x ∈ c.world.throttle.waiting, v.keeps x (turn x.ticket) = true) :
    v.throttleWoken turn =
      if c.world.throttle.waiting = [] then c.world.throttle
      else c.world.throttle.record .wakeup := by
  have hstay : (c.world.throttle.waiting.filter fun x => v.keeps x (turn x.ticket)) =
      c.world.throttle.waiting := List.filter_eq_self.mpr hkeeps
  have hgone : (c.world.throttle.waiting.filter fun x => !v.keeps x (turn x.ticket)) = [] := by
    rw [List.filter_eq_nil_iff]
    intro x hx
    simp [hkeeps x hx]
  unfold World.throttleWoken
  dsimp only
  rw [hv, hstay, hgone, ← h.counted]
  split <;> rfl

/-! ## Hooks -/

/-- A call from outside went through the throttle, which woke its writers in the world `v`. -/
structure Relays (c : Course) (call : Call) (v : World) (m : Moment) (d : Course) : Prop where
  /-- The next stage got the call once and as it was, and no other one from outside. -/
  called : d.outsideCalls = c.outsideCalls ++ [call]
  /-- The call came to the end that the next stage gave it. -/
  answered : d.answers = c.answers ++ [c.world.stage.outcome call]
  /-- The throttle did nothing but wake. -/
  woken : d.world = { v with throttle := v.throttleWoken m.turn }
  /-- It counted the wake if there was a writer to be woken. -/
  wakeups : d.world.throttle.counters.wakeups =
    c.world.throttle.counters.wakeups + if c.world.throttle.waiting = [] then 0 else 1
  /-- If it let nobody go, nothing else changed. -/
  unreleased : (∀ x ∈ c.world.throttle.waiting, v.keeps x (m.turn x.ticket) = true) →
    d.world.throttle =
      if c.world.throttle.waiting = [] then c.world.throttle
      else c.world.throttle.record .wakeup
  /-- The writers that it let go ended as their own sessions and the next stage say. -/
  released : ∀ x ∈ c.world.throttle.waiting,
    d.endingsOf x.ticket = c.endingsOf x.ticket ++ (v.scene.settle x (m.turn x.ticket)).toList
  /-- With no writer held it told nobody anything. -/
  idle : c.world.throttle.waiting = [] → d.signals = c.signals ∧ d.events = c.events

/-- A call that is made and answered around a wake goes through the throttle. -/
theorem relays_of_wake {d e : Course} {early late : List Happening} {call : Call}
    (h : Orderly c) (hd : Orderly d) (hthrottle : d.world.throttle = c.world.throttle)
    (hearly : d.happened = c.happened ++ early) (hworld : e.world = (d.wake m).world)
    (hlate : e.happened = (d.wake m).happened ++ late)
    (hparts : early ++ late =
      [.forwarded none call, .answered (c.world.stage.outcome call)]) :
    Relays c call d.world m e := by
  have hhappened : e.happened = c.happened ++ early ++ d.world.wakeTrail m ++ late := by
    rw [hlate, happened_wake hd, hearly]
  -- a view that passes over the wake sees the two parts of the call alone
  have hview : ∀ {α : Type} (f : Happening → Option α),
      (d.world.wakeTrail m).filterMap f = [] →
      e.happened.filterMap f = c.happened.filterMap f ++ (early ++ late).filterMap f := by
    intro α f hnone
    rw [hhappened, List.filterMap_append, List.filterMap_append, List.filterMap_append, hnone,
      List.append_nil, List.append_assoc, List.filterMap_append]
  have hwoken : e.world = { d.world with throttle := d.world.throttleWoken m.turn } :=
    hworld.trans (world_wake hd m)
  refine ⟨?_, ?_, hwoken, ?_, ?_, ?_, ?_⟩
  · rw [outsideCalls, hview _ (World.filterMap_wakeTrail rfl
      fun x now => (d.world.scene.outside_trail x now).1), hparts]
    rfl
  · rw [answers, hview _ (World.filterMap_wakeTrail rfl
      fun x now => (d.world.scene.outside_trail x now).2), hparts]
    rfl
  · rw [hwoken, ← hthrottle]
    exact wakeups_throttleWoken d.world m.turn
  · intro hkeeps
    rw [hwoken]
    exact throttleWoken_of_keeps h hthrottle hkeeps
  · intro x hx
    have hquiet : early.filterMap Happening.ending? = [] ∧
        late.filterMap Happening.ending? = [] := by
      rw [← List.append_eq_nil_iff, ← List.filterMap_append, hparts]
      rfl
    have hended : d.endings = c.endings := by
      rw [endings, hearly, List.filterMap_append, hquiet.1, List.append_nil]
      rfl
    have hends : e.endings = (d.wake m).endings := by
      rw [endings, hlate, List.filterMap_append, hquiet.2, List.append_nil]
      rfl
    rw [endingsOf, hends]
    refine (endingsOf_wake hd (hthrottle ▸ hx) m).trans ?_
    rw [endingsOf, hended]
    rfl
  · intro hnone
    have htrail : d.world.wakeTrail m = [] := by
      rw [World.wakeTrail, hthrottle, if_pos hnone]
    rw [htrail, List.append_nil, List.append_assoc, hparts] at hhappened
    simp [signals, events, hhappened, Happening.signals, Happening.event?]

/-- The course after a wake and then a call of the next stage, with its answer. -/
def wakeThenCall (c : Course) (call : Call) (m : Moment) : Course where
  world := (c.wake m).world
  past := .answered (c.world.stage.outcome call) :: .forwarded none call :: (c.wake m).past

theorem happened_wakeThenCall (h : Orderly c) (call : Call) :
    (c.wakeThenCall call m).happened =
      c.happened ++ (c.world.wakeTrail m ++
        [.forwarded none call, .answered (c.world.stage.outcome call)]) := by
  rw [← List.append_assoc, ← happened_wake h]
  simp [happened, wakeThenCall]

theorem relays_wakeThenCall (h : Orderly c) (call : Call) :
    Relays c call c.world m (c.wakeThenCall call m) := by
  refine relays_of_wake h h rfl (List.append_nil _).symm rfl ?_ (List.nil_append _)
  simp [happened, wakeThenCall]

/-- The next stage is told of an error before the writers are woken. -/
theorem Orderly.callNext (h : Orderly c) (call : Call) : Orderly (c.callNext call) := by
  cases call <;> exact ⟨h.sorted, h.given, h.counted⟩

theorem happened_callNext (call : Call) :
    (c.callNext call).happened = c.happened ++ [.forwarded none call] := by
  cases call <;> simp [callNext, happened]

theorem happened_exception (h : Orderly c) (cause : StageError) :
    (c.exception session cause m).happened =
      c.happened ++ (.forwarded none (.exception session cause) :: c.world.drain.wakeTrail m ++
        [.answered (c.world.stage.outcome (.exception session cause))]) := by
  have hwoken := happened_wake (h.callNext (.exception session cause)) m
  rw [happened_callNext] at hwoken
  have hanswered : (c.exception session cause m).happened =
      ((c.callNext (.exception session cause)).wake m).happened ++
        [.answered (c.world.stage.outcome (.exception session cause))] := by
    simp [happened, exception, answer]
  rw [hanswered, hwoken]
  simp
  rfl

theorem relays_exception (h : Orderly c) (cause : StageError) :
    Relays c (.exception session cause) c.world.drain m (c.exception session cause m) := by
  refine relays_of_wake h (h.callNext (.exception session cause)) rfl (happened_callNext _) rfl
    ?_ rfl
  simp [happened, exception, answer]

/-- Whatever a run has come to, and whatever the next stage makes of the calls: the hooks for
sent messages, for errors and for closed sessions each hand their call on once and unchanged and
give back what came of it. All else that they do is one wake, which is counted if there is a
writer to be woken and lets writers go by their own sessions alone. It comes before the call for
a sent message or a closed session, and for an error after the call, so that the writers see
what the next stage completed in it even if the call failed or crashed. -/
theorem hooks_are_transparent (s : Settings) (actions : List Action) (session : Nat)
    (request : Request) (cause : StageError) (m : Moment) :
    let c := (Course.start s).run actions
    let told (call : Call) : Happening := .forwarded none call
    let answer (call : Call) : Happening := .answered (c.world.stage.outcome call)
    let sent := Call.sent session request
    let exception := Call.exception session cause
    let closed := Call.closed session
    (Relays c sent c.world m (c.sent session request m) ∧
      (c.sent session request m).happened =
        c.happened ++ (c.world.wakeTrail m ++ [told sent, answer sent])) ∧
    (Relays c exception c.world.drain m (c.exception session cause m) ∧
      (c.exception session cause m).happened =
        c.happened ++ (told exception :: c.world.drain.wakeTrail m ++ [answer exception])) ∧
    Relays c closed c.world m (c.closed session m) ∧
      (c.closed session m).happened =
        c.happened ++ (c.world.wakeTrail m ++ [told closed, answer closed]) := by
  intro c told answer sent exception closed
  have h : Orderly c := orderly_run s actions
  refine ⟨⟨?_, ?_⟩, ⟨relays_exception h cause, happened_exception h cause⟩, ?_, ?_⟩
  · exact relays_wakeThenCall h sent
  · exact happened_wakeThenCall h sent
  · exact relays_wakeThenCall h closed
  · exact happened_wakeThenCall h closed

/-- Two writers are held, and the next stage drains the first one's session when it is told of
an error, then crashes. The crash comes out of the hook, and the writer on the drained session
has gone through by then; the other one is still held. -/
theorem hooks_are_transparent_draining :
    let s : Settings := { policy := .block, limits := ⟨1, 0, 0, 0⟩ }
    let c := (Course.start s).run holdTwo
    let d := c.exception 1 (.other "reset") { now := 9 }
    d.answers = c.answers ++ [.crashed "down"] ∧
      d.outsideCalls = [.exception 1 (.other "reset")] ∧
      d.world.throttle.counters.wakeups = 1 ∧
      d.endingsOf 0 = [.forwarded .done] ∧ d.world.throttle.held = 1 := by
  intro s c d
  obtain ⟨-, ⟨hrelays, -⟩, -⟩ :=
    hooks_are_transparent s holdTwo 1 ⟨2, []⟩ (.other "reset") { now := 9 }
  have hwaiting : ⟨0, 0, ⟨1, [7]⟩, 5, none⟩ ∈ c.world.throttle.waiting := by decide +kernel
  have hsome : c.world.throttle.waiting ≠ [] := List.ne_nil_of_mem hwaiting
  have hnone : c.world.throttle.counters.wakeups = 0 := by decide +kernel
  refine ⟨hrelays.answered.trans (by decide +kernel),
    hrelays.called.trans (by decide +kernel), ?_,
    (hrelays.released _ hwaiting).trans (by decide +kernel), ?_⟩
  · rw [hrelays.wakeups, if_neg hsome, hnone]
    rfl
  · rw [hrelays.woken]
    decide +kernel

end Course

end Pipeline

end Backpressure
