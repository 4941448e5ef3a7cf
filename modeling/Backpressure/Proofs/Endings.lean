import Backpressure.Proofs.Requests
set_option autoImplicit false

/-!
# How a write ends

A write goes by what the throttle read when it came: the policy, the bound of a wait and
what a look at its session showed. If that makes it wait, it also goes by the end of its
wait. `Fate` lists what can have come of a write; each fate fits some readings only, and
tells the one story that the past holds of the write. No later change of the policy or of
the bound, and nothing that happens to other writes, is part of it.
-/

namespace Backpressure.Pipeline

/-! ## What a write comes with -/

/-- A write as it comes to the throttle. -/
structure Arrival where
  ticket : Nat
  session : Nat
  request : Request
  now : Instant
  policy : Policy
  /-- For how long the write may be held, if it is held. -/
  bound : Option Duration
  /-- What a look at its session shows. -/
  verdict : Verdict
  deriving DecidableEq, Repr

/-- What a throttle does with a write when it comes. -/
inductive Treatment where
  /-- It hands the write on. -/
  | passes
  /-- It refuses the write. -/
  | bounces
  /-- It drops the write, since it cannot read the session. -/
  | crashes
  /-- It makes the writer wait. -/
  | waits
  deriving DecidableEq, Repr

namespace Arrival

variable (a : Arrival)

/-- What the throttle does with the write when it comes. -/
def treatment : Treatment :=
  match a.policy, a.verdict with
  | .off, _ | _, .ready | .log, .flooded => .passes
  | _, .unreadable => .crashes
  | .exception, .flooded => .bounces
  | .block, .flooded | .logAndBlock, .flooded => .waits

variable {a}

theorem treatment_eq_passes_iff :
    a.treatment = .passes ↔
      a.policy = .off ∨ a.verdict = .ready ∨ a.policy = .log ∧ a.verdict = .flooded := by
  unfold treatment
  cases a.policy <;> cases a.verdict <;> simp

theorem treatment_eq_bounces_iff :
    a.treatment = .bounces ↔ a.policy = .exception ∧ a.verdict = .flooded := by
  unfold treatment
  cases a.policy <;> cases a.verdict <;> simp

theorem treatment_eq_crashes_iff :
    a.treatment = .crashes ↔ a.policy ≠ .off ∧ a.verdict = .unreadable := by
  unfold treatment
  cases a.policy <;> cases a.verdict <;> simp

theorem treatment_eq_waits_iff :
    a.treatment = .waits ↔ a.policy.holds = true ∧ a.verdict = .flooded := by
  unfold treatment
  cases a.policy <;> cases a.verdict <;> simp [Policy.holds]

variable (a)

/-- The waiter that the write becomes if its writer waits. -/
def waiter : Waiter where
  ticket := a.ticket
  session := a.session
  request := a.request
  start := a.now
  deadline := Wait.deadline a.now a.bound

variable {a}

theorem deadline_waiter (h : a.bound = none) : a.waiter.deadline = none :=
  congrArg (Wait.deadline a.now) h

end Arrival

namespace Course

/-- A new write as it comes to a course. -/
def arrival (c : Course) (session : Nat) (request : Request) (now : Instant) : Arrival where
  ticket := c.world.arrivals
  session := session
  request := request
  now := now
  policy := c.world.throttle.config.policy
  bound := c.world.throttle.config.blockTimeout
  verdict := c.world.verdict session

/-- How a write ended, if it did. -/
def endingsOf (c : Course) (ticket : Nat) : List Ending :=
  (c.endings.filter (·.1 == ticket)).map Prod.snd

/-- The calls of the next stage for a write. -/
def callsOf (c : Course) (ticket : Nat) : List Call :=
  (c.calls.filter (·.1 == some ticket)).map Prod.snd

end Course

/-! ## Fates -/

/-- What has come of a write. -/
inductive Fate where
  /-- It was handed on at once. -/
  | passed (o : Outcome)
  /-- It was refused at once. -/
  | bounced (report : String)
  /-- Its session could not be read. -/
  | crashed (look : Look)
  /-- Its writer waits. -/
  | waiting
  /-- It was handed on after a wait. -/
  | wentOn (o : Outcome)
  /-- It was refused after a wait. -/
  | gaveUp (waited : Duration) (report : String)
  /-- Its session could not be read any more. -/
  | brokeOff (look : Look)
  deriving DecidableEq, Repr

namespace Fate

variable (a : Arrival)

/-- What the throttle did with the write when it came. -/
@[simp] def treatment : Fate → Treatment
  | passed _ => .passes
  | bounced _ => .bounces
  | crashed _ => .crashes
  | waiting | wentOn _ | gaveUp _ _ | brokeOff _ => .waits

/-- How the write ended. -/
@[simp] def endings : Fate → List Ending
  | passed o | wentOn o => [.forwarded o]
  | bounced report => [.refused (.overLimit a.request report)]
  | gaveUp waited report => [.refused (.timedOut a.request waited report)]
  | crashed _ | brokeOff _ => [.lost]
  | waiting => []

/-- The calls of the next stage for the write. -/
@[simp] def calls : Fate → List Call
  | passed _ | wentOn _ => [.write a.session a.request]
  | bounced _ | crashed _ | waiting | gaveUp _ _ | brokeOff _ => []

/-- How the wait of the write ended. -/
@[simp] def waits : Fate → List (Option WaitEnd)
  | wentOn _ => [some .ready]
  | gaveUp _ _ => [some .timedOut]
  | brokeOff _ => [none]
  | passed _ | bounced _ | crashed _ | waiting => []

/-- The looks at the session of the write that could not read it. -/
@[simp] def failures : Fate → List Look
  | crashed look | brokeOff look => [look]
  | passed _ | bounced _ | waiting | wentOn _ | gaveUp _ _ => []

/-- Where the throttle holds the request of the write. -/
@[simp] def kept : Fate → List Place
  | waiting => [.held a.waiter]
  | passed _ | bounced _ | crashed _ | wentOn _ | gaveUp _ _ | brokeOff _ => []

/-- What the past holds of the write, latest first. -/
@[simp] def story (f : Fate) : List Happening :=
  (f.endings a).map (.ended a.ticket) ++ (f.calls a).map (.forwarded (some a.ticket)) ++
    f.waits.map (.left a.ticket) ++ f.failures.map (.looked a.ticket a.session)

variable {a}

theorem length_endings_le (f : Fate) : (f.endings a).length ≤ 1 := by
  cases f <;> simp

/-- A refusal hands the request back, and the next stage does not see it. -/
theorem of_refused (f : Fate) {e : Refusal} (he : .refused e ∈ f.endings a) :
    e.request = a.request ∧ f.calls a = [] := by
  cases f with
  | bounced _ | gaveUp _ _ =>
    cases List.mem_singleton.mp he
    exact ⟨rfl, rfl⟩
  | passed _ | crashed _ | waiting | wentOn _ | brokeOff _ => simp at he

theorem calls_of_lost (f : Fate) (h : .lost ∈ f.endings a) : f.calls a = [] := by
  cases f <;> simp at h ⊢

theorem calls_of_forwarded (f : Fate) {o : Outcome} (h : .forwarded o ∈ f.endings a) :
    f.calls a = [.write a.session a.request] := by
  cases f <;> simp at h ⊢

variable (a)

/-- A write that came like this may have this fate. -/
structure Fits (f : Fate) : Prop where
  treated : a.treatment = f.treatment
  unreadable : ∀ look ∈ f.failures, look.verdict = .unreadable
  waited : ∀ {waited report}, f = .gaveUp waited report →
    ∃ b, a.bound = some b ∧ b.nanos ≤ waited.nanos

variable {a} in
/-- A write that did not give up after a wait goes by its treatment and its failures alone. -/
theorem fits_of_not_timedOut {f : Fate} (htreated : a.treatment = f.treatment)
    (hunreadable : ∀ look ∈ f.failures, look.verdict = .unreadable)
    (hwaits : some .timedOut ∉ f.waits) : f.Fits a := by
  refine ⟨htreated, hunreadable, ?_⟩
  rintro waited report rfl
  exact absurd (List.mem_singleton.mpr rfl) hwaits

namespace Fits

variable {a} {f : Fate}

theorem overLimit_iff (h : f.Fits a) :
    (∃ q r, .refused (.overLimit q r) ∈ f.endings a) ↔ a.treatment = .bounces := by
  rw [h.treated]
  cases f <;> simp

theorem timedOut_iff (h : f.Fits a) :
    (∃ q n r, .refused (.timedOut q n r) ∈ f.endings a) ↔
      a.treatment = .waits ∧ some .timedOut ∈ f.waits := by
  rw [h.treated]
  cases f <;> simp

theorem lost_iff (h : f.Fits a) :
    .lost ∈ f.endings a ↔
      a.treatment = .crashes ∨ a.treatment = .waits ∧ none ∈ f.waits := by
  rw [h.treated]
  cases f <;> simp

theorem forwarded_iff (h : f.Fits a) :
    (∃ o, .forwarded o ∈ f.endings a) ↔
      a.treatment = .passes ∨ a.treatment = .waits ∧ some .ready ∈ f.waits := by
  rw [h.treated]
  cases f <;> simp

/-- A write that passes or may wait for ever is not refused. -/
theorem not_refused (h : f.Fits a)
    (hfree : a.policy = .log ∨ a.policy.holds = true ∧ a.bound = none) {e : Refusal} :
    .refused e ∉ f.endings a := by
  intro hm
  cases f with
  | passed _ | crashed _ | waiting | wentOn _ | brokeOff _ => simp at hm
  | bounced _ =>
    have hpolicy := (Arrival.treatment_eq_bounces_iff.mp h.treated).1
    simp [hpolicy, Policy.holds] at hfree
  | gaveUp _ _ =>
    have hpolicy := (Arrival.treatment_eq_waits_iff.mp h.treated).1
    obtain ⟨b, hb, -⟩ := h.waited rfl
    rcases hfree with hlog | ⟨-, hbound⟩
    · simp [hlog, Policy.holds] at hpolicy
    · simp [hbound] at hb

end Fits

end Fate

/-! ## Stories -/

/-- A happening bears on what comes of a write: it is its end or that of its wait, a call
of the next stage for it, or a look that could not read its session. -/
@[simp] def Happening.bears (ticket : Nat) : Happening → Bool
  | ended t _ | left t _ => t == ticket
  | forwarded t _ => t == some ticket
  | looked t _ look => t == ticket && look.verdict == .unreadable
  | _ => false

namespace Course

variable {c c' : Course} {w : Waiter} {ticket session : Nat} {request : Request} {now : Instant}

/-- What the past holds of a write, latest first. -/
def story (c : Course) (ticket : Nat) : List Happening := c.past.filter (Happening.bears ticket)

theorem mem_story (ticket : Nat) {h : Happening} (hb : h.bears ticket = true) :
    h ∈ c.story ticket ↔ h ∈ c.past := by
  rw [story, List.mem_filter, and_iff_left hb]

theorem mem_callsOf_of_mem_past {call : Call} (h : .forwarded (some ticket) call ∈ c.past) :
    call ∈ c.callsOf ticket := by
  refine List.mem_map.mpr ⟨(some ticket, call), List.mem_filter.mpr ⟨?_, ?_⟩, rfl⟩
  · exact List.mem_filterMap.mpr ⟨_, List.mem_reverse.mpr h, rfl⟩
  · exact beq_self_eq_true _

theorem mem_endingsOf {e : Ending} : e ∈ c.endingsOf ticket ↔ .ended ticket e ∈ c.past := by
  rw [endingsOf, List.mem_map]
  constructor
  · rintro ⟨⟨t, _⟩, hm, rfl⟩
    obtain ⟨hm, ht⟩ := List.mem_filter.mp hm
    obtain ⟨h, hh, heq⟩ := List.mem_filterMap.mp hm
    obtain rfl : t = ticket := beq_iff_eq.mp ht
    cases h with
    | ended t e =>
      cases heq
      exact List.mem_reverse.mp hh
    | _ => cases heq
  · intro hm
    refine ⟨(ticket, e), List.mem_filter.mpr ⟨?_, beq_self_eq_true _⟩, rfl⟩
    exact List.mem_filterMap.mpr ⟨_, List.mem_reverse.mpr hm, rfl⟩

/-- What a view shows of a write it shows of the story of the write. -/
theorem view_eq_of_bears {κ β : Type} [BEq κ] {view : Happening → Option (κ × β)} {key : κ}
    (hview : ∀ h x, view h = some x → h.bears ticket = (x.1 == key)) :
    ((c.happened.filterMap view).filter (·.1 == key)).map Prod.snd =
      (c.story ticket).reverse.filterMap fun h => (view h).map Prod.snd := by
  rw [happened, story, ← List.filter_reverse, List.filter_filterMap, List.map_filterMap,
    List.filterMap_filter]
  refine List.filterMap_congr fun h _ => ?_
  cases hv : view h with
  | none => split <;> rfl
  | some x =>
    rw [hview h x hv]
    cases hk : x.1 == key <;> simp [Option.filter, hk]

theorem endingsOf_eq (c : Course) (ticket : Nat) :
    c.endingsOf ticket =
      (c.story ticket).reverse.filterMap fun h => h.ending?.map Prod.snd := by
  refine view_eq_of_bears fun h x hx => ?_
  cases h with
  | ended t e =>
    cases hx
    rfl
  | _ => cases hx

theorem callsOf_eq (c : Course) (ticket : Nat) :
    c.callsOf ticket =
      (c.story ticket).reverse.filterMap fun h => h.call?.map Prod.snd := by
  refine view_eq_of_bears fun h x hx => ?_
  cases h with
  | forwarded t call =>
    cases hx
    rfl
  | _ => cases hx

/-- A write has met its fate in a course, or goes on waiting for it. -/
structure Meets (a : Arrival) (f : Fate) (c : Course) : Prop where
  fits : f.Fits a
  told : c.story a.ticket = f.story a
  kept : c.kept a.ticket = f.kept a

namespace Meets

variable {a : Arrival} {f : Fate}

theorem endingsOf (h : Meets a f c) : c.endingsOf a.ticket = f.endings a := by
  rw [endingsOf_eq, h.told]
  cases f <;> rfl

theorem callsOf (h : Meets a f c) : c.callsOf a.ticket = f.calls a := by
  rw [callsOf_eq, h.told]
  cases f <;> rfl

theorem left_mem_iff (h : Meets a f c) {e : Option WaitEnd} :
    .left a.ticket e ∈ c.past ↔ e ∈ f.waits := by
  rw [← mem_story a.ticket (beq_self_eq_true _), h.told]
  cases f <;> simp [Fate.story, Fate.endings, Fate.calls, Fate.waits, Fate.failures]

theorem looked_mem_iff (h : Meets a f c) {look : Look} (hv : look.verdict = .unreadable) :
    .looked a.ticket a.session look ∈ c.past ↔ look ∈ f.failures := by
  rw [← mem_story a.ticket (by simp [hv]), h.told]
  cases f <;> simp

/-- A write is lost if a look at its session could not read it. -/
theorem lost_iff (h : Meets a f c) :
    .lost ∈ f.endings a ↔
      ∃ look, .looked a.ticket a.session look ∈ c.past ∧ look.verdict = .unreadable := by
  have hfailures : (∃ look, .looked a.ticket a.session look ∈ c.past ∧
      look.verdict = .unreadable) ↔ ∃ look, look ∈ f.failures := by
    constructor
    · rintro ⟨look, hlook, hv⟩
      exact ⟨look, (h.looked_mem_iff hv).mp hlook⟩
    · rintro ⟨look, hlook⟩
      have hv := h.fits.unreadable look hlook
      exact ⟨look, (h.looked_mem_iff hv).mpr hlook, hv⟩
  rw [hfailures]
  cases f <;> simp

/-- A write has not ended if its writer waits. -/
theorem waiting_iff (h : Meets a f c) :
    a.waiter ∈ c.world.throttle.waiting ↔ f.endings a = [] := by
  have hkept : a.waiter ∈ c.world.throttle.waiting ↔ .held a.waiter ∈ c.kept a.ticket := by
    simp [Course.kept, Arrival.waiter]
  rw [hkept, h.kept]
  cases f <;> simp

end Meets

/-! ## The stories of other writes -/

@[simp] theorem story_warnTrail (t : Nat) :
    (c.warnTrail t session now).filter (Happening.bears ticket) = [] :=
  warnTrail_eq c t session now (fun _ _ _ _ => rfl) (fun _ _ => rfl) (fun _ _ => rfl)

theorem Written.story_of_ne (h : Written c session request now c')
    (ht : c.world.arrivals ≠ ticket) : c'.story ticket = c.story ticket := by
  cases h <;> simp [story, ht, newWaiter]

theorem Passed.story_of_ne (h : Passed c w now c') (ht : w.ticket ≠ ticket) :
    c'.story ticket = c.story ticket := by
  cases h <;> simp [story, ht, releaseTrail]

/-! ## The story of a write -/

/-- A write that is handed on at once has met its fate. -/
theorem meets_forward {a : Arrival} (hfits : a.treatment = .passes)
    (hstory : c.story a.ticket = []) (hkept : c.kept a.ticket = []) :
    ∃ f, Meets a f (c.forward a.ticket a.session a.request) := by
  have hpast : c.past.filter (Happening.bears a.ticket) = [] := hstory
  refine ⟨.passed (c.world.stage.outcome (.write a.session a.request)),
    Fate.fits_of_not_timedOut hfits (by simp) (by simp), ?_, hkept⟩
  simp [story, hpast]

/-- A new write meets its fate, or its writer starts to wait. -/
theorem Written.meets (h : Written c session request now c')
    (hstory : c.story c.world.arrivals = []) (hkept : c.kept c.world.arrivals = []) :
    ∃ f, Meets (c.arrival session request now) f c' := by
  have hpast : c.past.filter (Happening.bears c.world.arrivals) = [] := hstory
  have hwaiting : c.world.throttle.waiting.filter (·.ticket == c.world.arrivals) = [] :=
    List.map_eq_nil_iff.mp hkept
  cases h with
  | untouched hp => exact meets_forward (Arrival.treatment_eq_passes_iff.mpr (.inl hp)) hstory hkept
  | ready hp hv =>
    have hlook : (c.world.look session).verdict = .ready := hv
    refine meets_forward (Arrival.treatment_eq_passes_iff.mpr (.inr (.inl hv))) ?_ hkept
    simp [story, arrival, hpast, hlook]
  | lost hp hv =>
    have hlook : (c.world.look session).verdict = .unreadable := hv
    refine ⟨.crashed (c.world.look session),
      Fate.fits_of_not_timedOut (Arrival.treatment_eq_crashes_iff.mpr ⟨hp, hv⟩)
        (by simpa using hlook) (by simp), ?_, hkept⟩
    simp [story, arrival, hpast, hlook]
  | passes hp hv =>
    have hlook : (c.world.look session).verdict = .flooded := hv
    refine meets_forward (Arrival.treatment_eq_passes_iff.mpr (.inr (.inr ⟨hp, hv⟩))) ?_ ?_
    · simp [story, arrival, hpast, hlook]
    · simp [kept, arrival, hwaiting]
  | rejected hp hv =>
    have hlook : (c.world.look session).verdict = .flooded := hv
    refine ⟨.bounced (c.world.report session),
      Fate.fits_of_not_timedOut (Arrival.treatment_eq_bounces_iff.mpr ⟨hp, hv⟩) (by simp)
        (by simp), ?_, hkept⟩
    simp [story, arrival, hpast, hlook]
    rfl
  | waits hp hv | warnsAndWaits hp hv =>
    have hlook : (c.world.look session).verdict = .flooded := hv
    have htreated : (c.arrival session request now).treatment = .waits :=
      Arrival.treatment_eq_waits_iff.mpr ⟨congrArg Policy.holds hp, hv⟩
    refine ⟨.waiting, Fate.fits_of_not_timedOut htreated (by simp) (by simp), ?_, ?_⟩
    · simp [story, arrival, hpast, hlook, newWaiter]
    · simp [kept, arrival, hwaiting, newWaiter, Arrival.waiter]

/-- A pass of its writer leaves a write waiting or makes it meet its fate. -/
theorem Passed.meets {a : Arrival} {f : Fate} (hp : Passed c w now c') (h : Meets a f c)
    (hw : w ∈ c.world.throttle.waiting) (ht : w.ticket = a.ticket) :
    ∃ f, Meets a f c' := by
  have hheld : .held w ∈ f.kept a := by
    rw [← h.kept]
    exact List.mem_map_of_mem (List.mem_filter.mpr ⟨hw, beq_iff_eq.mpr ht⟩)
  cases f with
  | passed _ | bounced _ | crashed _ | wentOn _ | gaveUp _ _ | brokeOff _ =>
    exact absurd hheld List.not_mem_nil
  | waiting =>
    obtain rfl : w = a.waiter := Place.held.inj (List.mem_singleton.mp hheld)
    have hpast : c.past.filter (Happening.bears a.ticket) = [] := h.told
    cases hp with
    | stays hk =>
      have hlook : (c.world.look a.session).verdict = .flooded := (World.keeps_iff.mp hk).1
      refine ⟨.waiting, h.fits, ?_, h.kept⟩
      simp [story, hpast, hlook, Arrival.waiter]
    | goesOn hv =>
      have hlook : (c.world.look a.session).verdict = .ready := hv
      refine ⟨.wentOn (c.world.stage.outcome (.write a.session a.request)),
        Fate.fits_of_not_timedOut h.fits.treated (by simp) (by simp), ?_, ?_⟩
      · simp [story, hpast, hlook, releaseTrail, Arrival.waiter]
      · simp [kept, Arrival.waiter]
    | givesUp hv hd hn =>
      have hlook : (c.world.look a.session).verdict = .flooded := hv
      obtain ⟨b, hb, rfl⟩ := Option.map_eq_some_iff.mp hd
      refine ⟨.gaveUp (Duration.ofNanos (now - a.now)) (c.world.report a.session),
        ⟨h.fits.treated, by simp, ?_⟩, ?_, ?_⟩
      · rintro _ _ ⟨⟩
        exact ⟨b, hb, Duration.le_nanos_ofNanos (Nat.le_sub_of_add_le' hn)⟩
      · simp [story, hpast, hlook, releaseTrail, Arrival.waiter]
      · simp [kept, Arrival.waiter]
    | breaks hv =>
      have hlook : (c.world.look a.session).verdict = .unreadable := hv
      refine ⟨.brokeOff (c.world.look a.session),
        Fate.fits_of_not_timedOut h.fits.treated (by simpa using hlook) (by simp), ?_, ?_⟩
      · simp [story, hpast, hlook, Arrival.waiter]
      · simp [kept, Arrival.waiter]

/-! ## Every write meets its fate -/

/-- Nothing has happened to a write that has not come yet. -/
def Fresh (c : Course) : Prop := ∀ t, c.world.arrivals ≤ t → c.story t = []

theorem Fresh.move (ho : Orderly c) (h : Fresh c) (hm : Move c c') : Fresh c' := by
  intro t ht
  cases hm with
  | surround _ _ _ _ | wakeup _ | call _ | answer _ => exact h t ht
  | write hw =>
    rw [hw.arrivals] at ht
    rw [hw.story_of_ne (by omega)]
    exact h t (by omega)
  | pass hw hp =>
    rw [hp.arrivals] at ht
    have hgiven := ho.given _ hw
    rw [hp.story_of_ne (by omega)]
    exact h t ht

theorem fresh_run (s : Settings) (actions : List Action) :
    Fresh ((Course.start s).run actions) :=
  invariant_run (P := Fresh) Fresh.move (.start s) (fun _ _ => rfl) actions

/-- A write that has come waits or has met its fate. -/
def Settled (a : Arrival) (c : Course) : Prop :=
  a.ticket < c.world.arrivals ∧ ∃ f, Meets a f c

theorem Settled.move {a : Arrival} (_ : Orderly c) (h : Settled a c) (hm : Move c c') :
    Settled a c' := by
  obtain ⟨hgiven, f, hmeets⟩ := h
  cases hm with
  | surround _ _ _ _ | wakeup _ | call _ | answer _ =>
    exact ⟨hgiven, f, hmeets.fits, hmeets.told, hmeets.kept⟩
  | write hw =>
    have harrivals := hw.arrivals
    have hne : c.world.arrivals ≠ a.ticket := Nat.ne_of_gt hgiven
    exact ⟨by omega, f, hmeets.fits, by rw [hw.story_of_ne hne, hmeets.told],
      by rw [hw.kept_of_ne hne, hmeets.kept]⟩
  | @pass _ w now hw hp =>
    refine ⟨hp.arrivals ▸ hgiven, ?_⟩
    by_cases ht : w.ticket = a.ticket
    · exact hp.meets hmeets hw ht
    · exact ⟨f, hmeets.fits, by rw [hp.story_of_ne ht, hmeets.told],
        by rw [hp.kept_of_ne ht, hmeets.kept]⟩

/-- The request of a write that has not come yet is held nowhere. -/
theorem Orderly.kept_arrivals (ho : Orderly c) : c.kept c.world.arrivals = [] := by
  rw [kept, List.map_eq_nil_iff, List.filter_eq_nil_iff]
  intro w hw heq
  exact absurd (ho.given w hw) (Nat.not_lt.mpr (Nat.le_of_eq (beq_iff_eq.mp heq).symm))

/-- A write is settled from its arrival on. -/
theorem settled_write (ho : Orderly c) (hfresh : Fresh c) (session : Nat) (request : Request)
    (now : Instant) : Settled (c.arrival session request now) (c.write session request now) := by
  have hstory : c.story c.world.arrivals = [] := hfresh _ (Nat.le_refl _)
  have hkept := ho.kept_arrivals
  have hsettled : ∀ {d}, Written c session request now d →
      Settled (c.arrival session request now) d := by
    intro d hw
    exact ⟨hw.arrivals ▸ Nat.lt_succ_self _, hw.meets hstory hkept⟩
  rcases written_write c session request now with hw | ⟨d, hw, hwaiting, heq⟩
  · exact hsettled hw
  · rw [heq]
    refine (hsettled hw).move (ho.written hw) (.pass ?_ (passed_pass d _ now))
    rw [hwaiting]
    exact List.mem_append_right _ (List.mem_singleton.mpr rfl)

/-- In every course after it a write waits or has met its fate. -/
theorem meets_run (s : Settings) (before after : List Action) (session : Nat)
    (payload : Payload) (now : Instant) :
    let c := (Course.start s).run before
    ∃ f, Meets (c.arrival session (c.world.issue payload).1 now) f
      ((Course.start s).run (before ++ .write session payload now :: after)) := by
  intro c
  have ho : Orderly c := orderly_run s before
  have hwrite : Settled (c.arrival session (c.world.issue payload).1 now)
      (c.step (.write session payload now)) :=
    settled_write (ho.issuing payload) (fresh_run s before) session _ now
  rw [run_append, run_cons]
  exact (invariant_run Settled.move (ho.step _) hwrite after).2

/-! ## What the next stage makes of a write -/

/-- The next stage answers writes in some way, and every write that was handed on after some
past ended as the stage answers the call that was made for it. -/
structure Echoes (past : List Happening) (reply : Nat → Request → Reply) (c : Course) :
    Prop where
  answers : c.world.stage.replyTo = reply
  ended : ∀ {t o}, .ended t (.forwarded o) ∈ c.past →
    .ended t (.forwarded o) ∈ past ∨ ∃ session request,
      .forwarded (some t) (.write session request) ∈ c.past ∧ o = (reply session request).outcome

namespace Echoes

variable {past : List Happening} {reply : Nat → Request → Reply}

/-- What hands no write on and leaves the next stage alone leaves the writes handed on. -/
theorem of_past (h : Echoes past reply c)
    (hstage : c'.world.stage.replyTo = c.world.stage.replyTo)
    (hpast : ∀ t o, .ended t (.forwarded o) ∈ c'.past → .ended t (.forwarded o) ∈ c.past)
    (hkept : c.past ⊆ c'.past) : Echoes past reply c' := by
  refine ⟨hstage.trans h.answers, fun hm => (h.ended (hpast _ _ hm)).imp_right ?_⟩
  rintro ⟨session, request, hcall, ho⟩
  exact ⟨session, request, hkept hcall, ho⟩

theorem called (h : Echoes past reply c) (call : Call) :
    Echoes past reply (c.note (.forwarded none call)) :=
  h.of_past rfl (by simp) (List.subset_cons_self _ _)

theorem answer (h : Echoes past reply c) (o : Outcome) : Echoes past reply (c.answer o) :=
  h.of_past rfl (by simp [Course.answer]) (List.subset_cons_self _ _)

theorem forward (h : Echoes past reply c) (t session : Nat) (request : Request) :
    Echoes past reply (c.forward t session request) := by
  refine ⟨h.answers, fun {u o} hm => ?_⟩
  rcases List.mem_cons.mp hm with heq | hm
  · cases heq
    have hreply : c.world.stage.replyTo session request = reply session request :=
      congrFun (congrFun h.answers session) request
    exact .inr ⟨session, request, by simp, congrArg Reply.outcome hreply⟩
  · refine (h.ended (by simpa using hm)).imp_right ?_
    rintro ⟨s, r, hcall, ho⟩
    exact ⟨s, r, by simp [hcall], ho⟩

theorem written (h : Echoes past reply c) (hw : Written c session request now c') :
    Echoes past reply c' := by
  have hkept := hw.past_suffix.subset
  cases hw with
  | untouched hp | ready hp hv =>
    apply Echoes.forward
    exact h.of_past rfl (by simp) fun _ hm => by simp [hm]
  | passes hp hv =>
    have hstage := World.stage_eq_of_ground
      (ground_warn (c.throttled session request .log) c.world.arrivals session now)
    apply Echoes.forward
    exact h.of_past (congrArg Stage.replyTo hstage) (by simp) fun _ hm => by simp [hm]
  | lost hp hv | rejected hp hv | waits hp hv => exact h.of_past rfl (by simp) hkept
  | warnsAndWaits hp hv =>
    have hstage := World.stage_eq_of_ground
      (ground_warn (c.throttled session request .logAndBlock) c.world.arrivals session now)
    exact h.of_past (congrArg Stage.replyTo hstage) (by simp) hkept

theorem passed (h : Echoes past reply c) (hp : Passed c w now c') : Echoes past reply c' := by
  have hkept := hp.past_suffix.subset
  cases hp with
  | stays hk | breaks hv => exact h.of_past rfl (by simp) hkept
  | givesUp hv hd hn => exact h.of_past rfl (by simp [releaseTrail]) hkept
  | goesOn hv =>
    have hleft : Echoes past reply ((((c.lookAgain w).leave w (some .ready)).record
        (.blocked (Duration.ofNanos (now - w.start)))).note
        (.traced w.ticket (.released (c.world.ledger.idOf w.session)
          (Duration.ofNanos (now - w.start)) .ready))) :=
      h.of_past rfl (by simp) fun _ hm => by simp [hm]
    exact hleft.forward w.ticket w.session w.request

theorem wake (h : Echoes past reply c) (m : Moment) : Echoes past reply (c.wake m) :=
  preserved_wake (fun hp h => h.passed hp)
    (fun _ h => h.of_past rfl (by simp) (List.subset_cons_self _ _)) m h

end Echoes

/-- A write that an action hands on ends as the next stage answers its call at that action. -/
theorem forwarded_step (a : Action) {t : Nat} {o : Outcome}
    (hm : .ended t (.forwarded o) ∈ (c.step a).past) :
    .ended t (.forwarded o) ∈ c.past ∨ ∃ session request,
      .forwarded (some t) (.write session request) ∈ (c.step a).past ∧
        o = c.world.stage.outcome (.write session request) := by
  have h : Echoes c.past c.world.stage.replyTo c := ⟨rfl, .inl⟩
  have hissued : ∀ payload, Echoes c.past c.world.stage.replyTo (c.issuing payload) :=
    fun _ => ⟨rfl, .inl⟩
  have hended : Echoes c.past c.world.stage.replyTo (c.step a) →
      .ended t (.forwarded o) ∈ c.past ∨ ∃ session request,
        .forwarded (some t) (.write session request) ∈ (c.step a).past ∧
          o = c.world.stage.outcome (.write session request) :=
    fun h => h.ended hm
  cases a with
  | post _ | configure _ | direct _ => exact .inl hm
  | write session payload now =>
    exact hended (preserved_write (hissued payload).written fun hp h => h.passed hp)
  | expire ticket now => exact hended (preserved_expire (fun hp h => h.passed hp) ticket now h)
  | wake m => exact hended (h.wake m)
  | sent session payload m =>
    exact hended ((((hissued payload).wake m).called _).answer _)
  | closed session m => exact hended (((h.wake m).called _).answer _)
  | exception session cause m =>
    have halarmed : Echoes c.past c.world.stage.replyTo (c.alarmed session cause) :=
      h.of_past rfl (by simp [alarmed, callNext]) (List.subset_cons_self _ _)
    exact hended ((halarmed.wake m).answer _)

/-- What happens in a run happens at one of its actions. -/
theorem exists_step_of_mem {x : Happening} (actions : List Action)
    (hm : x ∈ (c.run actions).past) (hn : x ∉ c.past) :
    ∃ earlier a later, actions = earlier ++ a :: later ∧ x ∉ (c.run earlier).past ∧
      x ∈ ((c.run earlier).step a).past := by
  induction actions generalizing c with
  | nil => exact absurd hm hn
  | cons a as ih =>
    by_cases hstep : x ∈ (c.step a).past
    · exact ⟨[], a, as, rfl, hn, hstep⟩
    · obtain ⟨earlier, b, later, heq, hbefore, hafter⟩ := ih hm hstep
      exact ⟨a :: earlier, b, later, congrArg (a :: ·) heq, hbefore, hafter⟩

/-! ## Runs -/

/-- In every course of a run a write that came earlier has ended as the readings at its
arrival and the end of its wait say, once, or its writer still waits. The throttle refuses
it at once exactly under the policy for that, and after a wait exactly if the wait timed
out, and hands the request back. A write whose session could not be read is lost and
reaches the next stage in no way. Any other write reaches it once, and ends as the next
stage answers at that action, whether it accepts, refuses or crashes. -/
theorem ending_follows_policy (s : Settings) (before after : List Action) (session : Nat)
    (payload : Payload) (now : Instant) :
    let c := (Course.start s).run before
    let a := c.arrival session (c.world.issue payload).1 now
    let actions := before ++ .write session payload now :: after
    let d := (Course.start s).run actions
    let ends := d.endingsOf a.ticket
    let calls := d.callsOf a.ticket
    let waited e := a.policy.holds = true ∧ a.verdict = .flooded ∧ .left a.ticket e ∈ d.past
    ((∃ q r, .refused (.overLimit q r) ∈ ends) ↔ a.policy = .exception ∧ a.verdict = .flooded) ∧
      ((∃ q n r, .refused (.timedOut q n r) ∈ ends) ↔ waited (some .timedOut)) ∧
      (∀ e, .refused e ∈ ends → e.request = a.request ∧ calls = []) ∧
      (.lost ∈ ends ↔ a.policy ≠ .off ∧ a.verdict = .unreadable ∨ waited none) ∧
      (.lost ∈ ends ↔
        ∃ look, .looked a.ticket a.session look ∈ d.past ∧ look.verdict = .unreadable) ∧
      (.lost ∈ ends → calls = []) ∧
      ((∃ o, .forwarded o ∈ ends) ↔
        a.policy = .off ∨ a.verdict = .ready ∨ a.policy = .log ∧ a.verdict = .flooded ∨
          waited (some .ready)) ∧
      (∀ o, .forwarded o ∈ ends → calls = [.write a.session a.request] ∧
        ∃ earlier x later, actions = earlier ++ x :: later ∧
          let e := (Course.start s).run earlier
          .forwarded o ∉ e.endingsOf a.ticket ∧ .forwarded o ∈ (e.step x).endingsOf a.ticket ∧
            o = e.world.stage.outcome (.write a.session a.request)) ∧
      ends.length ≤ 1 ∧ (ends = [] ↔ a.waiter ∈ d.world.throttle.waiting) ∧
      (a.policy = .log ∨ a.policy.holds = true ∧ a.bound = none → ∀ e, .refused e ∉ ends) := by
  intro c a actions d ends calls waited
  obtain ⟨f, h⟩ : ∃ f, Meets a f d := meets_run s before after session payload now
  have hends : ends = f.endings a := h.endingsOf
  have hcalls : calls = f.calls a := h.callsOf
  have hwaited : ∀ e, waited e ↔ a.treatment = .waits ∧ e ∈ f.waits := by
    intro e
    rw [Arrival.treatment_eq_waits_iff, ← h.left_mem_iff, and_assoc]
  rw [hends, hcalls, hwaited, hwaited, hwaited, ← Arrival.treatment_eq_bounces_iff,
    ← Arrival.treatment_eq_crashes_iff]
  have hforwarded : (∃ o, .forwarded o ∈ f.endings a) ↔ a.policy = .off ∨ a.verdict = .ready ∨
      a.policy = .log ∧ a.verdict = .flooded ∨ a.treatment = .waits ∧ some .ready ∈ f.waits := by
    rw [h.fits.forwarded_iff, Arrival.treatment_eq_passes_iff, or_assoc, or_assoc]
  have hanswer : ∀ o, .forwarded o ∈ f.endings a →
      ∃ earlier x later, actions = earlier ++ x :: later ∧
        let e := (Course.start s).run earlier
        .forwarded o ∉ e.endingsOf a.ticket ∧ .forwarded o ∈ (e.step x).endingsOf a.ticket ∧
          o = e.world.stage.outcome (.write a.session a.request) := by
    intro o ho
    have hcall : d.callsOf a.ticket = [.write a.session a.request] :=
      hcalls.trans (f.calls_of_forwarded ho)
    rw [← h.endingsOf, mem_endingsOf] at ho
    obtain ⟨earlier, x, later, heq, hbefore, hafter⟩ :=
      exists_step_of_mem actions ho List.not_mem_nil
    refine ⟨earlier, x, later, heq, mt mem_endingsOf.mp hbefore, mem_endingsOf.mpr hafter, ?_⟩
    obtain ⟨session, request, hmade, ho⟩ := (forwarded_step x hafter).resolve_left hbefore
    -- the call that was made then is the only one that is ever made for the write
    have hpast : .forwarded (some a.ticket) (.write session request) ∈ d.past := by
      simp only [d, heq, run_append, run_cons]
      exact (past_suffix_run ((orderly_run s earlier).step x) later).subset hmade
    have hsame := mem_callsOf_of_mem_past hpast
    rw [hcall, List.mem_singleton, Call.write.injEq] at hsame
    rw [ho, hsame.1, hsame.2]
  refine ⟨h.fits.overLimit_iff, h.fits.timedOut_iff, fun e he => f.of_refused he, h.fits.lost_iff,
    h.lost_iff, f.calls_of_lost, hforwarded, fun o ho => ⟨f.calls_of_forwarded ho, hanswer o ho⟩,
    f.length_endings_le, h.waiting_iff.symm, fun hfree e => h.fits.not_refused hfree⟩

/-- A writer is held; neither a policy that refuses nor a bound that comes later reaches it,
and its write fails as the next stage then does. -/
example :
    ((Course.start { policy := .logAndBlock, limits := ⟨1, 0, 0, 0⟩ }).run
      [.post .openService, .post (.openSession 0), .post (.schedule 0 10), .write 0 [7] 5,
       .configure (.policy .exception), .configure (.blockTimeout (some (.ofNanos 1))),
       .direct { write := .refuse (.other "full") }, .post (.complete 0 10),
       .wake { now := 9 }]).endingsOf 0 =
      [.forwarded (.failed (.other "full"))] := by
  decide

end Course

end Backpressure.Pipeline
