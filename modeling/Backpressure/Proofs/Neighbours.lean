import Backpressure.Proofs.Loads
import Backpressure.Proofs.Scenes
import Mathlib.Data.List.Find
import Mathlib.Data.List.Infix
set_option autoImplicit false

/-!
# Sessions beside each other

A service and a throttle are shared by all sessions, and a wake reaches every held writer.
Still, while only limits on sessions are in force and waits have no bound, what comes of the
writes on one session depends on its own load alone. Two ledgers that `Agree` on a session
show it the same as far as such limits go; entries for other sessions keep them so. A run
and the same run without what other sessions do then go through the same scenes for that
session, so its writes come to the same kinds of ends at the same actions.
-/

namespace Backpressure

/-! ## Limits on sessions alone -/

/-- No limit on services is in force, and waits have no bound. -/
def Config.IsLocal (c : Config) : Prop :=
  c.limits.globalMessages = 0 ∧ c.limits.globalBytes = 0 ∧ c.blockTimeout = none

instance (c : Config) : Decidable c.IsLocal := inferInstanceAs (Decidable (_ ∧ _ ∧ _))

/-- Without limits on services only the session's own load counts. -/
theorem Readiness.verdict_eq_of_local {limits : Figures UInt64}
    (hmessages : limits.globalMessages = 0) (hbytes : limits.globalBytes = 0) (v : View) :
    verdict limits v =
      if v.lost then .unreadable
      else if v.closing then .ready
      else if allows limits.localMessages v.figures.localMessages &&
        allows limits.localBytes v.figures.localBytes then .ready
      else .flooded := by
  unfold verdict examine
  cases v.lost with
  | true => rfl
  | false =>
    cases v.closing with
    | true => rfl
    | false =>
      simp [scan_verdict, Dimension.all, Figures.get, hmessages, hbytes, allows_zero]

namespace Ledger

/-! ## Ledgers that agree on a session -/

/-- Two ledgers have the same services and the same number of sessions, and hold the same of
one of these. -/
structure Agree (session : Nat) (l m : Ledger) : Prop where
  services : l.services.map Service.lastId = m.services.map Service.lastId
  sessions : l.sessions.length = m.sessions.length
  own : l.sessions[session]? = m.sessions[session]?

/-- An entry is about the load or the end of another session. -/
def Entry.isForeign (session : Nat) : Entry → Bool
  | .schedule other _ | .complete other _ | .close other => other != session
  | .openService | .openSession _ | .lose _ => false

variable {l m : Ledger} {session other : Nat}

theorem lastIds_changeLoad (f : Load → Load) :
    (l.changeLoad other f).services.map Service.lastId = l.services.map Service.lastId := by
  unfold changeLoad
  split
  · rfl
  · rename_i x _
    refine List.ext_getElem? fun i => ?_
    rw [List.getElem?_map, List.getElem?_map, List.getElem?_modify]
    cases l.services[i]? with
    | none => rfl
    | some service =>
      simp only [Option.map_some, Option.map_eq_map]
      split <;> rfl

theorem length_changeLoad (f : Load → Load) :
    (l.changeLoad other f).sessions.length = l.sessions.length := by
  unfold changeLoad
  split <;> simp

namespace Agree

theorem refl (session : Nat) (l : Ledger) : Agree session l l := ⟨rfl, rfl, rfl⟩

theorem changeLoad (h : Agree session l m) (other : Nat) (f : Load → Load) :
    Agree session (l.changeLoad other f) (m.changeLoad other f) where
  services := by rw [lastIds_changeLoad, lastIds_changeLoad, h.services]
  sessions := by rw [length_changeLoad, length_changeLoad, h.sessions]
  own := by rw [sessions_changeLoad, sessions_changeLoad, h.own]

theorem modify (h : Agree session l m) (other : Nat) (mark : Session → Session) :
    Agree session { l with sessions := l.sessions.modify other mark }
      { m with sessions := m.sessions.modify other mark } where
  services := h.services
  sessions := by simp [h.sessions]
  own := by simp [List.getElem?_modify, h.own]

theorem openSession (h : Agree session l m) (service : Nat) :
    Agree session (l.openSession service) (m.openSession service) := by
  have hlast :
      l.services[service]?.map Service.lastId = m.services[service]?.map Service.lastId := by
    rw [← List.getElem?_map, ← List.getElem?_map, h.services]
  unfold Ledger.openSession
  cases hl : l.services[service]? with
  | none =>
    rw [hl] at hlast
    rw [Option.map_eq_none_iff.mp hlast.symm]
    exact h
  | some x =>
    rw [hl] at hlast
    obtain ⟨y, hy, hid⟩ := Option.map_eq_some_iff.mp hlast.symm
    rw [hy]
    refine ⟨?_, ?_, ?_⟩
    · simp [List.map_set, h.services, hid]
    · simp [h.sessions]
    · dsimp only
      rw [List.getElem?_append, List.getElem?_append, h.own, h.sessions, hid]

/-- The same entry keeps ledgers in agreement. -/
theorem post (h : Agree session l m) (e : Entry) : Agree session (l.post e) (m.post e) := by
  cases e with
  | openService => exact ⟨by simp [Ledger.post, openService, h.services], h.sessions, h.own⟩
  | openSession service => exact h.openSession service
  | schedule other bytes => exact h.changeLoad other (·.add bytes)
  | complete other bytes => exact h.changeLoad other (·.sub bytes)
  | close other | lose other => exact h.modify other _

/-- An entry about another session leaves a ledger in agreement. -/
theorem post_left (h : Agree session l m) {e : Entry} (he : e.isForeign session = true) :
    Agree session (l.post e) m := by
  cases e with
  | openService | openSession _ | lose _ => cases he
  | schedule other bytes | complete other bytes =>
    have hne : session ≠ other := Ne.symm (bne_iff_ne.mp he)
    exact ⟨(lastIds_changeLoad _).trans h.services, (length_changeLoad _).trans h.sessions,
      sessions_changeLoad.trans (by simp [hne, h.own])⟩
  | close other =>
    have hne : other ≠ session := bne_iff_ne.mp he
    refine ⟨h.services, ?_, ?_⟩
    · simp [Ledger.post, Ledger.close, h.sessions]
    · simp [Ledger.post, Ledger.close, hne, h.own]

/-- Under limits on sessions alone the session shows the same. -/
theorem verdict (h : Agree session l m) {limits : Figures UInt64}
    (hmessages : limits.globalMessages = 0) (hbytes : limits.globalBytes = 0) :
    Readiness.verdict limits (l.view session) = Readiness.verdict limits (m.view session) := by
  rw [Readiness.verdict_eq_of_local hmessages hbytes,
    Readiness.verdict_eq_of_local hmessages hbytes]
  unfold view
  rw [h.own]
  cases m.sessions[session]? <;> rfl

end Agree

end Ledger

namespace Pipeline

/-! ## Ends without their texts -/

/-- How a write comes to its end, without the request and the texts. -/
inductive Ending.Kind (α : Type) where
  | forwarded (answer : α)
  | refused (afterWait : Bool)
  | lost
  deriving DecidableEq, Repr

/-- How a write comes to its end, without the request and the texts, and with what some view
shows of the next stage's answer. -/
def Ending.kind {α : Type} (view : Outcome → α) : Ending → Ending.Kind α
  | forwarded o => .forwarded (view o)
  | refused e => .refused e.isTimeout
  | lost => .lost

/-- The next stage does not tell requests apart by their identities. -/
def Stage.ForgetsIds (s : Stage) : Prop := ∀ w ∈ s.singled, w.id = none

instance (s : Stage) : Decidable s.ForgetsIds := inferInstanceAs (Decidable (∀ w ∈ _, _))

/-- Such a stage answers a message on a session alike under every identity. -/
theorem Stage.ForgetsIds.outcome_eq {s : Stage} (h : s.ForgetsIds) (session : Nat)
    {q r : Request} (hpayload : q.payload = r.payload) :
    s.outcome (.write session q) = s.outcome (.write session r) := by
  have hfits : ∀ w ∈ s.singled, w.fits session q = w.fits session r := by
    intro w hw
    rw [WriteReply.fits, WriteReply.fits, h w hw, hpayload]
    rfl
  rw [outcome, outcome, replyTo, replyTo, List.find?_congr hfits]

/-! ## Runs without the others -/

/-- An action is about the load, the end or a write of another session. -/
def Action.isForeign (session : Nat) : Action → Bool
  | .post entry => entry.isForeign session
  | .write other _ _ => other != session
  | .configure _ | .direct _ | .expire _ _ | .wake _ | .sent _ _ _ | .exception _ _ _
  | .closed _ _ => false

/-- The actions without those that are about other sessions. -/
def aloneWith (session : Nat) (actions : List Action) : List Action :=
  actions.filter (!·.isForeign session)

section Alone

variable {session : Nat} {a : Action}

theorem aloneWith_append (as bs : List Action) :
    aloneWith session (as ++ bs) = aloneWith session as ++ aloneWith session bs :=
  List.filter_append ..

theorem aloneWith_cons_of_foreign (ha : a.isForeign session = true) (as : List Action) :
    aloneWith session (a :: as) = aloneWith session as := by
  simp [aloneWith, ha]

theorem aloneWith_cons_of_own (ha : a.isForeign session = false) (as : List Action) :
    aloneWith session (a :: as) = a :: aloneWith session as := by
  simp [aloneWith, ha]

/-- No change of configuration is about a session. -/
theorem filterMap_change_aloneWith (as : List Action) :
    (aloneWith session as).filterMap Action.change? = as.filterMap Action.change? := by
  rw [aloneWith, List.filterMap_filter]
  refine List.filterMap_congr fun a _ => ?_
  cases a <;> simp [Action.isForeign, Action.change?]

end Alone

namespace Scene

/-- Two scenes are the same for one session. -/
structure Agree (session : Nat) (s t : Scene) : Prop where
  limits : s.limits = t.limits
  ledger : s.ledger.Agree session t.ledger
  stage : s.stage = t.stage

/-- No limit on services is in force. -/
def IsLocal (s : Scene) : Prop := s.limits.globalMessages = 0 ∧ s.limits.globalBytes = 0

/-- As far as a view shows, the next stage answers two requests on a session alike. -/
def AnswersAlike {α : Type} (s : Scene) (view : Outcome → α) (session : Nat) (q r : Request) :
    Prop :=
  view (s.stage.outcome (.write session q)) = view (s.stage.outcome (.write session r))

variable {s t : Scene} {session : Nat} {x y : Waiter}

namespace Agree

theorem drain (h : Agree session s t) : Agree session s.drain t.drain := by
  obtain ⟨hlimits, hledger, hstage⟩ := h
  refine ⟨hlimits, ?_, congrArg (fun stage => { stage with drains := [] }) hstage⟩
  unfold Scene.drain
  rw [hstage]
  generalize s.ledger = l, t.ledger = m at hledger ⊢
  induction t.stage.drains generalizing l m with
  | nil => exact hledger
  | cons d ds ih => exact ih _ _ (hledger.changeLoad d.session _)

/-- The same action keeps scenes in agreement. -/
theorem step (h : Agree session s t) (a : Action) : Agree session (s.step a) (t.step a) := by
  cases a with
  | post entry => exact ⟨h.limits, h.ledger.post entry, h.stage⟩
  | configure change => exact ⟨congrArg change.limits h.limits, h.ledger, h.stage⟩
  | direct stage => exact ⟨h.limits, h.ledger, rfl⟩
  | exception _ _ _ => exact h.drain
  | write _ _ _ | expire _ _ | wake _ | sent _ _ _ | closed _ _ => exact h

/-- An action about another session leaves a scene in agreement. -/
theorem step_left (h : Agree session s t) {a : Action} (ha : a.isForeign session = true) :
    Agree session (s.step a) t := by
  cases a with
  | post entry => exact ⟨h.limits, h.ledger.post_left ha, h.stage⟩
  | write _ _ _ => exact h
  | configure _ | direct _ | expire _ _ | wake _ | sent _ _ _ | exception _ _ _ | closed _ _ =>
    cases ha

theorem run (h : Agree session s t) (as : List Action) :
    Agree session (s.run as) (t.run (aloneWith session as)) := by
  induction as generalizing s t with
  | nil => exact h
  | cons a as ih =>
    cases ha : a.isForeign session with
    | true =>
      rw [aloneWith_cons_of_foreign ha]
      exact ih (h.step_left ha)
    | false =>
      rw [aloneWith_cons_of_own ha]
      exact ih (h.step a)

theorem verdict (h : Agree session s t) (hlocal : s.IsLocal) :
    s.verdict session = t.verdict session := by
  have hverdict := h.ledger.verdict hlocal.1 hlocal.2
  rw [Scene.verdict, Scene.look, Scene.verdict, Scene.look, ← h.limits]
  exact hverdict

section Ends

variable {α : Type} {view : Outcome → α}

/-- Writers of the session that wait without a bound come to the same kind of end in a pass,
if the next stage answers them alike. -/
theorem settle (h : Agree session s t) (hlocal : s.IsLocal) (hx : x.session = session)
    (hy : y.session = session) (hdx : x.deadline = none) (hdy : y.deadline = none)
    (hanswer : s.AnswersAlike view session x.request y.request) (now now' : Instant) :
    (t.settle y now').map (Ending.kind view) = (s.settle x now).map (Ending.kind view) := by
  rw [settle_of_deadline_eq_none hdx, settle_of_deadline_eq_none hdy, hx, hy, h.verdict hlocal,
    ← h.stage]
  cases t.verdict session with
  | ready => exact congrArg (some ∘ Ending.Kind.forwarded) hanswer.symm
  | flooded | unreadable => rfl

theorem release (h : Agree session s t) (hlocal : s.IsLocal) (hx : x.session = session)
    (hy : y.session = session) (hdx : x.deadline = none) (hdy : y.deadline = none)
    (hanswer : s.AnswersAlike view session x.request y.request) (a : Action) :
    (t.release y a).map (Ending.kind view) = (s.release x a).map (Ending.kind view) := by
  cases a with
  | wake m | sent _ _ m | closed _ m => exact h.settle hlocal hx hy hdx hdy hanswer _ _
  | exception _ _ m => exact h.drain.settle hlocal hx hy hdx hdy hanswer _ _
  | expire ticket now => simp [hdx, hdy]
  | post _ | configure _ | direct _ | write _ _ _ => rfl

/-- They wait as long and come to the same kind of end, whether or not there are actions
about other sessions. -/
theorem outcome (h : Agree session s t) (hx : x.session = session) (hy : y.session = session)
    (hdx : x.deadline = none) (hdy : y.deadline = none) (as : List Action)
    (hlocal : ∀ earlier, earlier <+: as → (s.run earlier).IsLocal)
    (hanswer : ∀ earlier, earlier <+: as →
      (s.run earlier).AnswersAlike view session x.request y.request) :
    (t.outcome y (aloneWith session as)).map (Ending.kind view) =
      (s.outcome x as).map (Ending.kind view) := by
  induction as generalizing s t with
  | nil => rfl
  | cons a as ih =>
    have hhere : s.IsLocal := hlocal [] List.nil_prefix
    have hanswers : s.AnswersAlike view session x.request y.request := hanswer [] List.nil_prefix
    have hcons : ∀ {earlier}, earlier <+: as → a :: earlier <+: a :: as :=
      fun hp => List.cons_prefix_cons.mpr ⟨rfl, hp⟩
    have hlater : ∀ earlier, earlier <+: as → ((s.step a).run earlier).IsLocal :=
      fun earlier hp => hlocal (a :: earlier) (hcons hp)
    have hanswer' : ∀ earlier, earlier <+: as →
        ((s.step a).run earlier).AnswersAlike view session x.request y.request :=
      fun earlier hp => hanswer (a :: earlier) (hcons hp)
    rw [Scene.outcome, Option.map_or]
    cases ha : a.isForeign session with
    | true =>
      -- what is taken out of the run lets nobody go where it stands
      have hnone : s.release x a = none := by
        cases a <;> first | rfl | cases ha
      rw [aloneWith_cons_of_foreign ha, ih (h.step_left ha) hlater hanswer', hnone]
      rfl
    | false =>
      rw [aloneWith_cons_of_own ha, Scene.outcome, Option.map_or,
        h.release hhere hx hy hdx hdy hanswers, ih (h.step a) hlater hanswer']

/-- New writes on the session that are treated alike come to the same kind of end at once, if
they do. -/
theorem meet (h : Agree session s t) (hlocal : s.IsLocal) {a b : Arrival}
    (ha : a.session = session) (hb : b.session = session) (hda : a.bound = none)
    (hdb : b.bound = none) (htreated : b.treatment = a.treatment)
    (hanswer : s.AnswersAlike view session a.request b.request) :
    (t.meet b).map (Ending.kind view) = (s.meet a).map (Ending.kind view) := by
  unfold Scene.meet
  rw [htreated, ha, hb, ← h.stage]
  cases a.treatment with
  | passes => exact congrArg (some ∘ Ending.Kind.forwarded) hanswer.symm
  | bounces | crashes => rfl
  | waits =>
    exact h.settle hlocal ha hb (Arrival.deadline_waiter hda) (Arrival.deadline_waiter hdb)
      hanswer a.now b.now

/-- New writes that are treated alike come to the same kind of end, at once or after a wait,
whether or not there are actions about other sessions. -/
theorem ends (h : Agree session s t) {a b : Arrival} (ha : a.session = session)
    (hb : b.session = session) (hda : a.bound = none) (hdb : b.bound = none)
    (htreated : b.treatment = a.treatment) (as : List Action)
    (hlocal : ∀ earlier, earlier <+: as → (s.run earlier).IsLocal)
    (hanswer : ∀ earlier, earlier <+: as →
      (s.run earlier).AnswersAlike view session a.request b.request) :
    ((t.meet b).or (t.outcome b.waiter (aloneWith session as))).map (Ending.kind view) =
      ((s.meet a).or (s.outcome a.waiter as)).map (Ending.kind view) := by
  have hmet : (t.meet b).map (Ending.kind view) = (s.meet a).map (Ending.kind view) :=
    h.meet (hlocal [] List.nil_prefix) ha hb hda hdb htreated (hanswer [] List.nil_prefix)
  have hwaited : (t.outcome b.waiter (aloneWith session as)).map (Ending.kind view) =
      (s.outcome a.waiter as).map (Ending.kind view) :=
    h.outcome ha hb (Arrival.deadline_waiter hda) (Arrival.deadline_waiter hdb) as hlocal hanswer
  rw [Option.map_or, Option.map_or, hmet, hwaited]

end Ends

end Agree

end Scene

namespace Course

variable (s : Settings) (session : Nat)

/-! ## Runs -/

theorem config_run_aloneWith (actions : List Action) :
    ((Course.start s).run (aloneWith session actions)).world.throttle.config =
      ((Course.start s).run actions).world.throttle.config := by
  rw [config_run, config_run, filterMap_change_aloneWith]

theorem agree_run_aloneWith (actions : List Action) :
    Scene.Agree session ((Course.start s).run actions).world.scene
      ((Course.start s).run (aloneWith session actions)).world.scene := by
  rw [scene_run, scene_run]
  exact Scene.Agree.run ⟨rfl, .refl _ _, rfl⟩ actions

/-- As long as only limits on sessions are in force and waits have no bound, a session and
the writes on it do not notice what is scheduled, completed and written on other sessions or
that these are closed. In a run and in the same run without all that, the session is ready
in the same courses, each write on it is treated alike when it comes, its writer is held in
the same courses, and it comes to the same kind of end at the same action, with the same
answer of the next stage if this does not tell requests apart by their identities: these
count all writes of a run. -/
theorem local_limits_isolate (actions : List Action) :
    (∀ earlier, earlier <+: actions →
      ((Course.start s).run earlier).world.throttle.config.IsLocal) →
    (∀ earlier, earlier <+: actions →
      ((Course.start s).run (aloneWith session earlier)).world.verdict session =
        ((Course.start s).run earlier).world.verdict session) ∧
    ∀ before payload now after, before ++ .write session payload now :: after <+: actions →
      let c := (Course.start s).run before
      let c' := (Course.start s).run (aloneWith session before)
      let a := c.arrival session (c.world.issue payload).1 now
      let a' := c'.arrival session (c'.world.issue payload).1 now
      let upto := before ++ .write session payload now :: after
      let d := (Course.start s).run upto
      let d' := (Course.start s).run (aloneWith session upto)
      a'.treatment = a.treatment ∧
        (a'.waiter ∈ d'.world.throttle.waiting ↔ a.waiter ∈ d.world.throttle.waiting) ∧
        (d'.endingsOf a'.ticket).map (Ending.kind fun _ => ()) =
          (d.endingsOf a.ticket).map (Ending.kind fun _ => ()) ∧
        ((∀ earlier, earlier <+: upto → ((Course.start s).run earlier).world.stage.ForgetsIds) →
          (d'.endingsOf a'.ticket).map (Ending.kind id) =
            (d.endingsOf a.ticket).map (Ending.kind id)) := by
  intro hlocal
  have hscene : ∀ earlier, earlier <+: actions →
      ((Course.start s).run earlier).world.scene.IsLocal :=
    fun earlier hp => ⟨(hlocal earlier hp).1, (hlocal earlier hp).2.1⟩
  have hverdict : ∀ earlier, earlier <+: actions →
      ((Course.start s).run (aloneWith session earlier)).world.verdict session =
        ((Course.start s).run earlier).world.verdict session :=
    fun earlier hp => ((agree_run_aloneWith s session earlier).verdict (hscene earlier hp)).symm
  refine ⟨hverdict, fun before payload now after hp => ?_⟩
  intro c c' a a' upto d d'
  have hbefore : before <+: actions := (List.prefix_append _ _).trans hp
  have hagree : Scene.Agree session c.world.scene c'.world.scene :=
    agree_run_aloneWith s session before
  have hconfig : c'.world.throttle.config = c.world.throttle.config :=
    config_run_aloneWith s session before
  have hpolicy : a'.policy = a.policy := congrArg Config.policy hconfig
  have hseen : a'.verdict = a.verdict := hverdict before hbefore
  have hbound : a.bound = none := (hlocal before hbefore).2.2
  have hbound' : a'.bound = none := (congrArg Config.blockTimeout hconfig).trans hbound
  have htreated : a'.treatment = a.treatment := by
    rw [Arrival.treatment, Arrival.treatment, hpolicy, hseen]
  have hinitial : ∀ {earlier}, earlier <+: after →
      before ++ .write session payload now :: earlier <+: upto := fun hearlier =>
    (List.prefix_append_right_inj _).mpr (List.cons_prefix_cons.mpr ⟨rfl, hearlier⟩)
  have hsame : ∀ earlier, c.world.scene.run earlier =
      ((Course.start s).run (before ++ .write session payload now :: earlier)).world.scene := by
    intro earlier
    rw [run_append]
    exact (scene_run (c := c) (.write session payload now :: earlier)).symm
  have hlater : ∀ earlier, earlier <+: after → (c.world.scene.run earlier).IsLocal := by
    intro earlier hearlier
    rw [hsame]
    exact hscene _ ((hinitial hearlier).trans hp)
  have hupto : aloneWith session upto =
      aloneWith session before ++ .write session payload now :: aloneWith session after := by
    rw [aloneWith_append, aloneWith_cons_of_own (by simp [Action.isForeign])]
  obtain ⟨hwaiting, hends⟩ := ending_run s before after session payload now
  obtain ⟨hwaiting', hends'⟩ :=
    ending_run s (aloneWith session before) (aloneWith session after) session payload now
  rw [← hupto] at hwaiting' hends'
  -- without the answer every two requests are answered alike
  have hanswered : ∀ earlier, earlier <+: after →
      (c.world.scene.run earlier).AnswersAlike (fun _ => ()) session a.request a'.request :=
    fun _ _ => rfl
  have hbare := hagree.ends rfl rfl hbound hbound' htreated after hlater hanswered
  refine ⟨htreated, ?_, ?_, fun hforgets => ?_⟩
  · rw [hwaiting, hwaiting', ← Option.map_eq_none_iff, hbare, Option.map_eq_none_iff]
  · rw [hends, hends', ← Option.toList_map, hbare, Option.toList_map]
  · have hanswer : ∀ earlier, earlier <+: after →
        (c.world.scene.run earlier).AnswersAlike id session a.request a'.request := by
      intro earlier hearlier
      rw [hsame]
      exact (hforgets _ (hinitial hearlier)).outcome_eq session rfl
    have hkinds := hagree.ends rfl rfl hbound hbound' htreated after hlater hanswer
    rw [hends, hends', ← Option.toList_map, hkinds, Option.toList_map]

/-- Two sessions are opened, and a writer comes to wait for the second one. -/
def crowd : List Action :=
  [.post .openService, .post (.openSession 0), .post (.openSession 0), .post (.schedule 1 99),
   .write 1 [9] 4, .post (.schedule 0 10)]

/-- The second session is closed, and what was scheduled on the first one is completed. -/
def disperse : List Action :=
  [.post (.close 1), .wake { now := 6 }, .post (.complete 0 10), .closed 1 { now := 9 }]

/-- A write on the first session in between waits for its own session, whether or not there
is anything on the second one. -/
theorem local_limits_isolate_crowd :
    let s : Settings := { policy := .logAndBlock, limits := ⟨1, 0, -5, 0⟩ }
    let actions := crowd ++ .write 0 [7] 5 :: disperse
    let d := (Course.start s).run actions
    let d' := (Course.start s).run (aloneWith 0 actions)
    aloneWith 0 crowd =
        [.post .openService, .post (.openSession 0), .post (.openSession 0),
         .post (.schedule 0 10)] ∧
      (d.endingsOf 1).map (Ending.kind id) = [.forwarded .done] ∧
      (d'.endingsOf 0).map (Ending.kind id) = [.forwarded .done] := by
  intro s actions d d'
  have hinits : ∀ earlier ∈ actions.inits,
      ((Course.start s).run earlier).world.throttle.config.IsLocal := by
    decide
  obtain ⟨-, hwrites⟩ := local_limits_isolate s 0 actions fun earlier hp =>
    hinits earlier ((List.mem_inits _ _).mpr hp)
  obtain ⟨-, -, -, hkinds⟩ := hwrites crowd [7] 5 disperse List.prefix_rfl
  have hforgets : ∀ earlier ∈ actions.inits,
      ((Course.start s).run earlier).world.stage.ForgetsIds := by
    decide
  have hends : (d.endingsOf 1).map (Ending.kind id) = [.forwarded .done] := by decide
  refine ⟨by decide, hends, (hkinds fun earlier hp => ?_).trans hends⟩
  exact hforgets earlier ((List.mem_inits _ _).mpr hp)

end Course

end Pipeline

end Backpressure
