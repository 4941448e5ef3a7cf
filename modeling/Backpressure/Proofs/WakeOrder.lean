import Backpressure.Proofs.Scenes
set_option autoImplicit false

/-!
# The order of woken writers

A wake sends every held writer through a pass, in an order that is up to the outside. In its
turn a writer looks at its own session and reads the clock for itself, and if it goes on the
next stage answers its own request. A pass changes nothing that another writer looks at, and
what it adds to the counters commutes. So the world after a wake is the same for every order
in which the writers read the same times, and so is the end of every write. What happened is
the same up to its order, and the requests of the writers that went on reach the next stage in
the order of their passes. If the times change with the order, they do so for each writer on
its own: what becomes of a writer depends on no time but the one that it reads.
-/

namespace Backpressure

/-- Several records are counted in any order. -/
theorem Counters.recordAll_perm (c : Counters) {rs rs' : List Record} (h : rs.Perm rs') :
    c.recordAll rs = c.recordAll rs' :=
  h.foldl_eq' (fun r _ s _ c => record_comm c r s) c

namespace Pipeline

/-! ## Orders -/

section Orders

variable {w : Waiter} {ws rest waiting : List Waiter}

/-- Tickets tell writers apart. -/
theorem filter_ticket_eq (hd : (waiting.map Waiter.ticket).Nodup) (hw : w ∈ waiting) :
    waiting.filter (·.ticket == w.ticket) = [w] := by
  have hsame : waiting.filter (·.ticket == w.ticket) = waiting.filter (· == w) := by
    refine List.filter_congr fun v hv => ?_
    rw [Bool.eq_iff_iff, beq_iff_eq, beq_iff_eq]
    exact ⟨List.inj_on_of_nodup_map hd hv hw, congrArg Waiter.ticket⟩
  rw [hsame, List.filter_beq, List.count_eq_one_of_mem hd.of_map hw, List.replicate_one]

/-- Bringing a writer forward puts it before those that were brought forward earlier. -/
theorem bringForward_append (hd : ((ws ++ rest).map Waiter.ticket).Nodup) (hw : w ∈ rest) :
    bringForward w.ticket (ws ++ rest) =
      w :: ws ++ rest.filter (!·.ticket == w.ticket) := by
  have hws : ∀ v ∈ ws, v.ticket ≠ w.ticket := by
    intro v hv he
    rw [List.map_append, List.nodup_append] at hd
    exact hd.2.2 _ (List.mem_map_of_mem hv) _ (List.mem_map_of_mem hw) he
  have hkept : ws.filter (!·.ticket == w.ticket) = ws :=
    List.filter_eq_self.mpr fun v hv => by simp [hws v hv]
  rw [bringForward, filter_ticket_eq hd (List.mem_append_right _ hw), List.filter_append, hkept,
    List.singleton_append, List.cons_append]

/-- Writers whose tickets are brought forward stand first, in the order of the tickets. -/
theorem arrange_map_ticket (hd : (waiting.map Waiter.ticket).Nodup)
    (hws : (ws.map Waiter.ticket).Nodup) (hm : ∀ w ∈ ws, w ∈ waiting) :
    ∃ rest, arrange (ws.map Waiter.ticket) waiting = ws ++ rest := by
  induction ws with
  | nil => exact ⟨waiting, rfl⟩
  | cons w ws ih =>
    rw [List.map_cons, List.nodup_cons] at hws
    -- the tickets are brought forward from the last one on, so `w` comes to stand first
    obtain ⟨rest, hrest⟩ := ih hws.2 fun v hv => hm v (List.mem_cons_of_mem _ hv)
    have hperm : (ws ++ rest).Perm waiting := hrest ▸ perm_arrange _ waiting
    have hw : w ∈ rest := by
      refine (List.mem_append.mp (hperm.mem_iff.mpr (hm w List.mem_cons_self))).resolve_left ?_
      exact fun hmem => hws.1 (List.mem_map_of_mem hmem)
    have hnodup : ((ws ++ rest).map Waiter.ticket).Nodup := (hperm.map _).nodup_iff.mpr hd
    refine ⟨rest.filter (!·.ticket == w.ticket), ?_⟩
    change bringForward w.ticket (arrange (ws.map Waiter.ticket) waiting) = _
    rw [hrest, bringForward_append hnodup hw]

/-- Every order of the waiting writers is one in which they can be woken. -/
theorem arrange_of_perm (hd : (waiting.map Waiter.ticket).Nodup) (hp : ws.Perm waiting) :
    arrange (ws.map Waiter.ticket) waiting = ws := by
  have hws : (ws.map Waiter.ticket).Nodup := (hp.map _).nodup_iff.mpr hd
  obtain ⟨rest, hrest⟩ := arrange_map_ticket hd hws fun w hw => hp.mem_iff.mp hw
  have hlength : (ws ++ rest).length = ws.length := by
    rw [← hrest, (perm_arrange _ waiting).length_eq, hp.length_eq]
  rw [List.length_append] at hlength
  rw [hrest, List.eq_nil_of_length_eq_zero (by omega : rest.length = 0), List.append_nil]

theorem lookup_turns (turn : Nat → Instant) (hw : w ∈ ws) :
    (ws.map fun x => (x.ticket, turn x.ticket)).lookup w.ticket = some (turn w.ticket) := by
  induction ws with
  | nil => cases hw
  | cons v vs ih =>
    rw [List.map_cons, List.lookup_cons]
    by_cases ht : w.ticket = v.ticket
    · rw [ht, beq_self_eq_true]
    · have hmem : w ∈ vs := (List.mem_cons.mp hw).resolve_left (mt (congrArg Waiter.ticket) ht)
      rw [beq_false_of_ne ht]
      exact ih hmem

/-- The waiting writers can be woken in every order, and at every time of each one's own. -/
theorem exists_moment (hd : (waiting.map Waiter.ticket).Nodup) (hp : ws.Perm waiting)
    (turn : Nat → Instant) :
    ∃ m : Moment, arrange m.first waiting = ws ∧
      ∀ x ∈ waiting, m.turn x.ticket = turn x.ticket := by
  refine ⟨⟨0, ws.map Waiter.ticket, ws.map fun x => (x.ticket, turn x.ticket)⟩,
    arrange_of_perm hd hp, fun x hx => ?_⟩
  rw [Moment.turn, lookup_turns turn (hp.mem_iff.mpr hx), Option.getD_some]

end Orders

/-! ## What a pass adds -/

/-- What is counted when something happens. -/
def Happening.record? : Happening → Option Record
  | recorded r => some r
  | _ => none

namespace World

/-- Worlds are the same if their grounds and what their throttles keep beside are. -/
theorem ext_ground {v w : World} (hground : v.ground = w.ground)
    (hgate : v.throttle.gate = w.throttle.gate) (hheld : v.throttle.held = w.throttle.held)
    (hwaiting : v.throttle.waiting = w.throttle.waiting)
    (hcounters : v.throttle.counters = w.throttle.counters) : v = w := by
  obtain ⟨⟨config, gate, held, waiting, counters⟩, ledger, stage, numbering, arrivals⟩ := v
  obtain ⟨⟨config', gate', held', waiting', counters'⟩, ledger', stage', numbering', arrivals'⟩ := w
  cases hground
  cases hgate
  cases hheld
  cases hwaiting
  cases hcounters
  rfl

end World

namespace Course

variable {c c' : Course} {w x : Waiter} {ws ws' : List Waiter} {now : Instant}
  {turn turn' : Nat → Instant}

/-- No pass asks the gate. -/
theorem Passed.gate (h : Passed c w now c') :
    c'.world.throttle.gate = c.world.throttle.gate := by
  cases h <;> rfl

/-- The counters after a pass. -/
theorem counters_pass (c : Course) (w : Waiter) (now : Instant) :
    (c.pass w now).world.throttle.counters =
      c.world.throttle.counters.recordAll
        ((c.world.scene.trail w now).filterMap Happening.record?) := by
  have hseen : c.world.scene.verdict w.session = (c.world.look w.session).verdict := rfl
  unfold pass Scene.trail
  dsimp only
  rw [hseen]
  cases Wait.pass w.deadline (c.world.look w.session).verdict now with
  | stays | breaks => rfl
  | ends e => cases e <;> rfl

theorem counters_passAll (ws : List Waiter) (turn : Nat → Instant) :
    (c.passAll ws turn).world.throttle.counters =
      c.world.throttle.counters.recordAll
        ((ws.flatMap fun x => c.world.scene.trail x (turn x.ticket)).filterMap
          Happening.record?) := by
  induction ws generalizing c with
  | nil => rfl
  | cons w ws ih =>
    have hp := passed_pass c w (turn w.ticket)
    rw [passAll_cons, ih, counters_pass, World.scene_eq_of_ground hp.ground, List.flatMap_cons,
      List.filterMap_append, Counters.recordAll, Counters.recordAll, Counters.recordAll,
      List.foldl_append]

/-- The calls of the next stage in a pass. -/
theorem calls_trail (s : Scene) (x : Waiter) (now : Instant) :
    (s.trail x now).filterMap Happening.call? =
      if s.verdict x.session = .ready then
        [(some x.ticket, Call.write x.session x.request)] else [] := by
  unfold Scene.trail
  split
  · rename_i hp
    rw [(Wait.pass_eq_stays_iff.mp hp).1]
    rfl
  · rename_i hp
    rw [Wait.pass_eq_ready_iff.mp hp]
    rfl
  · rename_i hp
    rw [(Wait.pass_eq_timedOut_iff.mp hp).1]
    rfl
  · rename_i hp
    rw [Wait.pass_eq_breaks_iff.mp hp]
    rfl

/-- The writers that go on in a row of passes reach the next stage in the order of the row. -/
theorem calls_passAll (ws : List Waiter) (turn : Nat → Instant) :
    (c.passAll ws turn).calls =
      c.calls ++ (ws.filter (c.world.scene.verdict ·.session = .ready)).map
        fun x => (some x.ticket, .write x.session x.request) := by
  rw [calls, happened_passAll, List.filterMap_append]
  refine congrArg (c.calls ++ ·) ?_
  induction ws with
  | nil => rfl
  | cons w ws ih =>
    rw [List.flatMap_cons, List.filterMap_append, ih, calls_trail, List.filter_cons]
    by_cases hv : c.world.scene.verdict w.session = .ready <;> simp [hv]

/-! ## Passes in any order -/

/-- Of the time only those turns matter that are taken. -/
theorem passAll_congr (h : ∀ w ∈ ws, turn' w.ticket = turn w.ticket) :
    c.passAll ws turn' = c.passAll ws turn := by
  induction ws generalizing c with
  | nil => rfl
  | cons w ws ih =>
    rw [passAll_cons, passAll_cons, h w List.mem_cons_self,
      ih fun v hv => h v (List.mem_cons_of_mem _ hv)]

theorem Orderly.passAll (h : Orderly c) (hp : ws.Perm c.world.throttle.waiting)
    (turn : Nat → Instant) : Orderly (c.passAll ws turn) := by
  have hd : (ws.map Waiter.ticket).Nodup := (hp.map _).nodup_iff.mpr h.nodup_tickets
  exact h.moves (stirs_passAll turn ws h hd fun w hw => hp.mem_iff.mp hw).moves

/-- The world after the passes of all held writers does not depend on their order. -/
theorem world_passAll_perm (h : Orderly c) (hp : ws.Perm c.world.throttle.waiting)
    (hp' : ws'.Perm c.world.throttle.waiting) (turn : Nat → Instant) :
    (c.passAll ws turn).world = (c.passAll ws' turn).world := by
  have hground : ∀ vs, (c.passAll vs turn).world.ground = c.world.ground := fun vs =>
    reading_passAll (f := fun c => c.world.ground) Passed.ground vs turn
  have hgate : ∀ vs, (c.passAll vs turn).world.throttle.gate = c.world.throttle.gate := fun vs =>
    reading_passAll (f := fun c => c.world.throttle.gate) Passed.gate vs turn
  have hwaiting : (c.passAll ws turn).world.throttle.waiting =
      (c.passAll ws' turn).world.throttle.waiting := by
    rw [waiting_passAll_perm turn h hp, waiting_passAll_perm turn h hp']
  refine World.ext_ground ?_ ?_ ?_ hwaiting ?_
  · rw [hground, hground]
  · rw [hgate, hgate]
  · rw [(h.passAll hp turn).counted, (h.passAll hp' turn).counted, hwaiting]
  · -- each pass adds its own records, whenever it comes
    rw [counters_passAll, counters_passAll]
    have htrails := (hp.trans hp'.symm).flatMap_right
      fun x => c.world.scene.trail x (turn x.ticket)
    exact Counters.recordAll_perm _ (htrails.filterMap _)

/-- What happens in several passes does not depend on their order. -/
theorem past_passAll_perm (hp : ws.Perm ws') (turn : Nat → Instant) :
    (c.passAll ws turn).past.Perm (c.passAll ws' turn).past := by
  have htrails := hp.flatMap_right fun x => c.world.scene.trail x (turn x.ticket)
  have hhappened : (c.passAll ws turn).happened.Perm (c.passAll ws' turn).happened := by
    rw [happened_passAll, happened_passAll]
    exact htrails.append_left _
  exact (List.reverse_perm _).symm.trans (hhappened.trans (List.reverse_perm _))

/-! ## Wakes in any order -/

section Wakes

variable {m m' : Moment} (hturn : ∀ x ∈ c.world.throttle.waiting, m'.turn x.ticket = m.turn x.ticket)
include hturn

/-- With the same times, another moment is another order of the same passes. -/
theorem passAll_arrange_congr (d : Course) (first : List Nat) :
    d.passAll (arrange first c.world.throttle.waiting) m'.turn =
      d.passAll (arrange first c.world.throttle.waiting) m.turn :=
  passAll_congr fun x hx => hturn x ((perm_arrange _ _).mem_iff.mp hx)

theorem world_wake_congr (h : Orderly c) : (c.wake m').world = (c.wake m).world := by
  have hcounted : Orderly (c.record .wakeup) := ⟨h.sorted, h.given, h.counted⟩
  unfold wake
  split
  · rfl
  · rw [passAll_arrange_congr hturn]
    exact world_passAll_perm hcounted (perm_arrange _ _) (perm_arrange _ _) m.turn

theorem past_wake_perm : (c.wake m').past.Perm (c.wake m).past := by
  unfold wake
  split
  · exact List.Perm.refl _
  · rw [passAll_arrange_congr hturn]
    exact past_passAll_perm ((perm_arrange _ _).trans (perm_arrange _ _).symm) m.turn

end Wakes

theorem calls_wake (h : Orderly c) (m : Moment) :
    (c.wake m).calls =
      c.calls ++
        ((arrange m.first c.world.throttle.waiting).filter
          (c.world.scene.verdict ·.session = .ready)).map
          fun x => (some x.ticket, .write x.session x.request) := by
  unfold wake
  split
  · rename_i hheld
    rw [h.counted, List.length_eq_zero_iff] at hheld
    have hnone := perm_arrange m.first c.world.throttle.waiting
    rw [hheld] at hnone ⊢
    rw [hnone.eq_nil, List.filter_nil, List.map_nil, List.append_nil]
  · have hcalls : (c.record .wakeup).calls = c.calls := by
      simp [calls, happened, Happening.call?]
    rw [calls_passAll, hcalls]
    rfl

theorem endingsOf_wake_of_ne {ticket : Nat}
    (hne : ∀ w ∈ c.world.throttle.waiting, w.ticket ≠ ticket) (m : Moment) :
    (c.wake m).endingsOf ticket = c.endingsOf ticket := by
  unfold wake
  split
  · rfl
  · have hperm := perm_arrange m.first c.world.throttle.waiting
    rw [endingsOf_passAll_of_ne _ _ fun w hw => hne w (hperm.mem_iff.mp hw)]
    exact endingsOf_congr (c := c) rfl

/-! ## Actions in any order -/

/-- The calls of the next stage that hand writes on. -/
def writeCalls (c : Course) : List (Option Nat × Call) := c.calls.filter (·.1.isSome)

end Course

/-- The action with its writers woken at another moment, if it wakes them. -/
def Action.wokenAt (m : Moment) (a : Action) : Action := a.mapMoment fun _ => m

namespace Course

variable {c : Course} {a : Action} {m m' : Moment}

theorem moment_wokenAt (m' : Moment) (ha : a.moment? = some m) :
    (a.wokenAt m').moment? = some m' := by
  cases a <;> cases ha <;> rfl

theorem beforeWake_wokenAt (m' : Moment) : c.beforeWake (a.wokenAt m') = c.beforeWake a := by
  cases a <;> rfl

theorem afterWake_wokenAt (m' : Moment) : c.afterWake (a.wokenAt m') = c.afterWake a := by
  cases a <;> rfl

/-- The writes that an action hands on while it wakes are those of the writers that find
their sessions ready, in the order in which they are woken. -/
theorem writeCalls_step (h : Orderly c) (ha : a.moment? = some m) :
    (c.step a).writeCalls =
      c.writeCalls ++
        ((arrange m.first c.world.throttle.waiting).filter
          ((c.beforeWake a).world.scene.verdict ·.session = .ready)).map
          fun x => (some x.ticket, .write x.session x.request) := by
  have hafter : (c.step a).writeCalls = ((c.beforeWake a).wake m).writeCalls := by
    rw [step_of_moment ha]
    cases a <;> simp [writeCalls, calls, happened, afterWake, Happening.call?]
  have hbefore : (c.beforeWake a).writeCalls = c.writeCalls := by
    cases a <;> simp [writeCalls, calls, happened, beforeWake, Happening.call?, issuing, alarmed,
      callNext]
  rw [hafter, writeCalls, calls_wake (h.beforeWake a), List.filter_append, waiting_beforeWake]
  refine congrArg₂ (· ++ ·) hbefore (List.filter_eq_self.mpr fun call hcall => ?_)
  obtain ⟨x, -, rfl⟩ := List.mem_map.mp hcall
  rfl

/-- An action brings a held writer to the end that its scene and its own time say, at
whatever moment it wakes the writers. -/
theorem release_wokenAt (m' : Moment) (ha : a.moment? = some m) (x : Waiter) :
    c.world.scene.release x (a.wokenAt m') =
      (c.beforeWake a).world.scene.settle x (m'.turn x.ticket) := by
  rw [release_of_moment (moment_wokenAt m' ha), beforeWake_wokenAt]

section Turns

variable (ha : a.moment? = some m)
  (hturn : ∀ x ∈ c.world.throttle.waiting, m'.turn x.ticket = m.turn x.ticket)
include ha hturn

theorem world_step_wokenAt (h : Orderly c) :
    (c.step (a.wokenAt m')).world = (c.step a).world := by
  rw [step_of_moment ha, step_of_moment (moment_wokenAt m' ha), beforeWake_wokenAt]
  rw [← waiting_beforeWake a] at hturn
  exact world_wake_congr hturn (h.beforeWake a)

theorem past_step_wokenAt : (c.step (a.wokenAt m')).past.Perm (c.step a).past := by
  rw [step_of_moment ha, step_of_moment (moment_wokenAt m' ha), beforeWake_wokenAt,
    afterWake_wokenAt]
  rw [← waiting_beforeWake a] at hturn
  exact List.Perm.append_left (c.afterWake a) (past_wake_perm hturn)

theorem endingsOf_step_wokenAt (h : Orderly c) (ticket : Nat) :
    (c.step (a.wokenAt m')).endingsOf ticket = (c.step a).endingsOf ticket := by
  by_cases hheld : ∃ x ∈ c.world.throttle.waiting, x.ticket = ticket
  · obtain ⟨x, hx, rfl⟩ := hheld
    rw [endingsOf_step h hx, endingsOf_step h hx, release_wokenAt m' ha, release_of_moment ha,
      hturn x hx]
  · -- no held writer has this ticket, so no pass ends its write
    have hne : ∀ w ∈ (c.beforeWake a).world.throttle.waiting, w.ticket ≠ ticket := by
      intro w hw ht
      rw [waiting_beforeWake] at hw
      exact hheld ⟨w, hw, ht⟩
    rw [endingsOf_step_of_moment ha, endingsOf_step_of_moment (moment_wokenAt m' ha),
      beforeWake_wokenAt, endingsOf_wake_of_ne hne, endingsOf_wake_of_ne hne]

end Turns

/-! ## Runs -/

/-- Whenever an action wakes the held writers of a run, they may go through their passes in
every order, and each of them may read every time in its turn. If each one reads the same time
in another order, then the world after the action, which writers are held then and the end of
every write are the same, and what has happened is the same up to its order; only the writes
that are handed on keep the order of the passes. At whatever times, each writer goes by its own
session, its own time and what the next stage makes of its own request: one that finds its
session ready goes on, one that cannot read it breaks off, and any other one is held on unless
its deadline has come in its turn, whatever comes of the others. -/
theorem wake_order_irrelevant (s : Settings) (actions : List Action) (a : Action) :
    let c := (Course.start s).run actions
    let waiting := c.world.throttle.waiting
    ∀ v m, c.world.atWake a = some v → a.moment? = some m →
      (∀ (order : List Waiter) (turn : Nat → Instant), order.Perm waiting →
        ∃ m' : Moment, arrange m'.first waiting = order ∧
          ∀ x ∈ waiting, m'.turn x.ticket = turn x.ticket) ∧
      ∀ m',
        let d := c.step (a.wokenAt m')
        ((∀ x ∈ waiting, m'.turn x.ticket = m.turn x.ticket) →
          d.world = (c.step a).world ∧
            (∀ ticket, d.endingsOf ticket = (c.step a).endingsOf ticket) ∧
            d.past.Perm (c.step a).past) ∧
          d.writeCalls =
            c.writeCalls ++
              ((arrange m'.first waiting).filter (v.verdict ·.session = .ready)).map
                (fun x => (some x.ticket, .write x.session x.request)) ∧
          ∀ x ∈ waiting,
            d.endingsOf x.ticket = (v.scene.settle x (m'.turn x.ticket)).toList ∧
            (v.verdict x.session = .ready →
              x ∉ d.world.throttle.waiting ∧
                d.endingsOf x.ticket =
                  [.forwarded (v.stage.outcome (.write x.session x.request))]) ∧
            (v.verdict x.session = .unreadable →
              x ∉ d.world.throttle.waiting ∧ d.endingsOf x.ticket = [.lost]) ∧
            (v.verdict x.session = .flooded →
              (x ∈ d.world.throttle.waiting ↔
                ∀ t, x.deadline = some t → m'.turn x.ticket < t) ∧
              (d.endingsOf x.ticket = [] ↔ x ∈ d.world.throttle.waiting)) := by
  intro c waiting v m hv hm
  have ho : Orderly c := orderly_run s actions
  obtain ⟨_, hm', hscene⟩ := moment_of_atWake hv
  obtain rfl := Option.some.inj (hm.symm.trans hm')
  refine ⟨fun order turn hperm => exists_moment ho.nodup_tickets hperm turn, fun m' => ?_⟩
  intro d
  have hcalls := writeCalls_step ho (moment_wokenAt m' hm)
  rw [beforeWake_wokenAt, ← hscene] at hcalls
  refine ⟨fun hturn => ⟨world_step_wokenAt hm hturn ho, endingsOf_step_wokenAt hm hturn ho,
    past_step_wokenAt hm hturn⟩, hcalls, fun x hx => ?_⟩
  have hheld := waiting_step ho hx (a.wokenAt m')
  have hends := endingsOf_step ho hx (a.wokenAt m')
  rw [release_wokenAt m' hm, ← hscene] at hheld hends
  rw [endingsOf_of_held s actions x hx, List.nil_append] at hends
  refine ⟨hends, fun hready => ?_, fun hlost => ?_, fun hflooded => ⟨?_, ?_⟩⟩
  · rw [Scene.settle_of_ready (s := v.scene) hready] at hheld hends
    exact ⟨fun hmem => Option.some_ne_none _ (hheld.mp hmem), hends⟩
  · rw [Scene.settle_of_unreadable (s := v.scene) hlost] at hheld hends
    exact ⟨fun hmem => Option.some_ne_none _ (hheld.mp hmem), hends⟩
  · rw [hheld, Scene.settle_eq_none_iff, Wait.pass_eq_stays_iff]
    exact and_iff_right hflooded
  · rw [hends, hheld, Option.toList_eq_nil_iff]

/-- Six writers are held, the last two until `100`. Then the sessions of the first three become
ready, and the next stage is to take the write on one of them, to refuse the one on another and
to crash on the third; the fourth session is lost. -/
def holdSix : List Action :=
  [.post .openService, .post (.openSession 0), .post (.openSession 0), .post (.openSession 0),
   .post (.openSession 0), .post (.openSession 0),
   .post (.schedule 0 10), .post (.schedule 1 10), .post (.schedule 2 10),
   .post (.schedule 3 10), .post (.schedule 4 10),
   .write 0 [7] 5, .write 1 [7] 6, .write 2 [7] 7, .write 3 [7] 8,
   .configure (.blockTimeout (some (.ofNanos 90))), .write 4 [7] 10, .write 4 [7] 10,
   .post (.complete 0 10), .post (.complete 1 10), .post (.complete 2 10), .post (.lose 3),
   .direct { singled :=
    [{ session := 1, payload := [7], id := some 2, reply := .refuse (.other "full") },
     { session := 2, payload := [7], reply := .crash "down" }] }]

/-- The writers of the lost session and of the crashing write are woken first. Of the last two
the one that reads `99` stays and the one that reads `101` goes, in either order. -/
theorem wake_order_irrelevant_holdSix :
    let c := (Course.start { policy := .block, limits := ⟨1, 0, 0, 0⟩ }).run holdSix
    let m : Moment := { now := 50, turns := [(4, 99), (5, 101)] }
    let a : Action := .closed 1 m
    let d := c.step (a.wokenAt { m with first := [5, 3, 2, 1] })
    d.world = (c.step a).world ∧
      d.endingsOf 0 = [.forwarded .done] ∧ d.endingsOf 1 = [.forwarded (.failed (.other "full"))] ∧
      d.endingsOf 2 = [.forwarded (.crashed "down")] ∧ d.endingsOf 3 = [.lost] ∧
      d.endingsOf 4 = [] ∧ d.endingsOf 5 ≠ [] ∧
      d.writeCalls =
        [(some 2, .write 2 ⟨3, [7]⟩), (some 1, .write 1 ⟨2, [7]⟩), (some 0, .write 0 ⟨1, [7]⟩)] ∧
      (c.step a).writeCalls =
        [(some 0, .write 0 ⟨1, [7]⟩), (some 1, .write 1 ⟨2, [7]⟩),
         (some 2, .write 2 ⟨3, [7]⟩)] := by
  intro c m a d
  obtain ⟨-, hmoments⟩ := wake_order_irrelevant { policy := .block, limits := ⟨1, 0, 0, 0⟩ }
    holdSix a c.world m rfl rfl
  obtain ⟨hsame, hcalls, hwriters⟩ := hmoments { m with first := [5, 3, 2, 1] }
  obtain ⟨hworld, -, -⟩ := hsame fun _ _ => rfl
  have hwaiting : c.world.throttle.waiting =
      [⟨0, 0, ⟨1, [7]⟩, 5, none⟩, ⟨1, 1, ⟨2, [7]⟩, 6, none⟩, ⟨2, 2, ⟨3, [7]⟩, 7, none⟩,
       ⟨3, 3, ⟨4, [7]⟩, 8, none⟩, ⟨4, 4, ⟨5, [7]⟩, 10, some 100⟩,
       ⟨5, 4, ⟨6, [7]⟩, 10, some 100⟩] := by
    decide
  rw [hwaiting] at hwriters
  simp only [List.forall_mem_cons] at hwriters
  obtain ⟨⟨-, hdone, -⟩, ⟨-, hrefused, -⟩, ⟨-, hcrashed, -⟩, ⟨-, -, hlost, -⟩,
    ⟨-, -, -, hstays⟩, ⟨-, -, -, hgoes⟩, -⟩ := hwriters
  obtain ⟨hheld, hended⟩ := hstays (by decide)
  obtain ⟨hheld', hended'⟩ := hgoes (by decide)
  refine ⟨hworld, (hdone (by decide)).2, (hrefused (by decide)).2, (hcrashed (by decide)).2,
    (hlost (by decide)).2, hended.mpr (hheld.mpr ?_), fun hnone => ?_, hcalls.trans (by decide),
    by decide⟩
  · rintro t ⟨⟩
    decide
  · exact absurd (hheld'.mp (hended'.mp hnone) 100 rfl) (by decide)

end Course

end Pipeline

end Backpressure
