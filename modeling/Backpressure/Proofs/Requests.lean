import Backpressure.Proofs.Moves
set_option autoImplicit false

/-!
# Where requests go

The request of a write is handed to the next stage, returned inside a refusal, held with
its writer, or dropped because the session could not be read. `Course.places` lists all
the places that the request of one write has come to, read off the past and off the
waiting writers. In every course of a run there is exactly one, with the request as it
was made. The identities of the requests made in a run ascend.
-/

namespace Backpressure.Pipeline

/-- A place that the request of a write has come to. -/
inductive Place where
  /-- A call of the next stage. -/
  | handed (call : Call)
  /-- The error with which the throttle refused the write. -/
  | returned (refusal : Refusal)
  /-- A writer that is held. -/
  | held (w : Waiter)
  /-- Nowhere: the session could not be read. -/
  | dropped
  deriving DecidableEq, Repr

/-- The place that one happening brings the request of a write to. -/
def Happening.place? (ticket : Nat) : Happening → Option Place
  | forwarded (some t) call => if t = ticket then some (.handed call) else none
  | ended t (.refused e) => if t = ticket then some (.returned e) else none
  | ended t .lost => if t = ticket then some .dropped else none
  | _ => none

/-- The request that a write arrives with, and its ticket. -/
def Happening.write? : Happening → Option (Nat × Request)
  | arrived t _ r _ => some (t, r)
  | _ => none

namespace Course

/-- The requests that were written so far, latest first, with their tickets. -/
def writes (c : Course) : List (Nat × Request) := c.past.filterMap Happening.write?

/-- The places outside the throttle that the request of a write has come to. -/
def reached (c : Course) (ticket : Nat) : List Place := c.past.filterMap (Happening.place? ticket)

/-- The places in which the throttle holds the request of a write. -/
def kept (c : Course) (ticket : Nat) : List Place :=
  (c.world.throttle.waiting.filter (·.ticket == ticket)).map .held

/-- All the places that the request of a write has come to. -/
def places (c : Course) (ticket : Nat) : List Place := c.reached ticket ++ c.kept ticket

end Course

namespace Place

/-- What is found in a place is the request of a write as it was made. -/
def Keeps (c : Course) (ticket session : Nat) (request : Request) : Place → Prop
  | handed call => call = .write session request
  | returned e => e.request = request ∧ (StageError.refused e).request? = some request
  | held w => w.session = session ∧ w.request = request
  | dropped => ∃ look, .looked ticket session look ∈ c.past ∧ look.verdict = .unreadable

/-- A request is found in a place. -/
def Carries (request : Request) : Place → Prop
  | handed call => ∃ session, call = .write session request
  | returned e => e.request = request
  | held w => w.request = request
  | dropped => False

/-- A place that keeps the request of a write carries no other one. -/
theorem Keeps.eq_of_carries {c : Course} {ticket session : Nat} {q r : Request} {p : Place}
    (h : p.Keeps c ticket session q) (hr : p.Carries r) : r = q := by
  cases p with
  | handed call =>
    obtain ⟨_, hcall⟩ := hr
    rw [show call = .write session q from h] at hcall
    cases hcall
    rfl
  | returned e => exact hr.symm.trans h.1
  | held w => exact hr.symm.trans h.2
  | dropped => exact hr.elim

/-- What more happens does not reach into a place. -/
theorem Keeps.mono {c d : Course} {ticket session : Nat} {request : Request} {p : Place}
    (h : p.Keeps c ticket session request) (hsub : c.past <:+ d.past) :
    p.Keeps d ticket session request := by
  cases p with
  | handed call => exact h
  | returned e => exact h
  | held w => exact h
  | dropped =>
    obtain ⟨look, hlook, hv⟩ := h
    exact ⟨look, hsub.subset hlook, hv⟩

end Place

namespace Course

variable {c c' : Course} {w : Waiter} {ticket session : Nat} {request : Request} {now : Instant}

/-! ## The requests of other writes -/

@[simp] theorem reached_warnTrail (t : Nat) :
    (c.warnTrail t session now).filterMap (Happening.place? ticket) = [] :=
  warnTrail_eq c t session now (fun _ _ _ _ => rfl) (fun _ _ => rfl) (fun _ _ => rfl)

@[simp] theorem reached_releaseTrail (e : WaitEnd) :
    (c.releaseTrail w now e).filterMap (Happening.place? ticket) = [] := rfl

theorem Written.kept_of_ne (h : Written c session request now c')
    (ht : c.world.arrivals ≠ ticket) : c'.kept ticket = c.kept ticket := by
  rcases h.throttle with ⟨-, hw⟩ | ⟨-, hw⟩
  · rw [kept, hw, kept]
  · simp [kept, hw, newWaiter, ht]

theorem Written.places_of_ne (h : Written c session request now c')
    (ht : c.world.arrivals ≠ ticket) : c'.places ticket = c.places ticket := by
  have hreached : c'.reached ticket = c.reached ticket := by
    cases h <;> simp [reached, List.filterMap_cons, Happening.place?, ht]
  rw [places, places, hreached, h.kept_of_ne ht]

theorem Passed.kept_of_ne (h : Passed c w now c') (ht : w.ticket ≠ ticket) :
    c'.kept ticket = c.kept ticket := by
  rw [kept, h.waiting, kept]
  split
  · rfl
  · rw [List.filter_filter]
    congr 1
    refine List.filter_congr fun x _ => ?_
    by_cases hx : x.ticket = ticket
    · simp [hx, ht.symm]
    · simp [hx]

theorem Passed.places_of_ne (h : Passed c w now c') (ht : w.ticket ≠ ticket) :
    c'.places ticket = c.places ticket := by
  have hreached : c'.reached ticket = c.reached ticket := by
    cases h <;> simp [reached, List.filterMap_cons, Happening.place?, ht]
  rw [places, places, hreached, h.kept_of_ne ht]

/-! ## The requests that are written -/

theorem mem_writes {t : Nat} {r : Request} :
    (t, r) ∈ c.writes ↔ ∃ s p, .arrived t s r p ∈ c.past := by
  rw [writes, List.mem_filterMap]
  constructor
  · rintro ⟨h, hh, heq⟩
    cases h with
    | arrived t' s r' p =>
      cases heq
      exact ⟨s, p, hh⟩
    | _ => cases heq
  · rintro ⟨s, p, hh⟩
    exact ⟨_, hh, rfl⟩

@[simp] theorem write_warnTrail (t : Nat) :
    (c.warnTrail t session now).filterMap Happening.write? = [] :=
  warnTrail_eq c t session now (fun _ _ _ _ => rfl) (fun _ _ => rfl) (fun _ _ => rfl)

@[simp] theorem write_releaseTrail (e : WaitEnd) :
    (c.releaseTrail w now e).filterMap Happening.write? = [] := rfl

theorem Written.writes (h : Written c session request now c') :
    c'.writes = (c.world.arrivals, request) :: c.writes := by
  cases h <;> simp [Course.writes, List.filterMap_cons, Happening.write?]

theorem Passed.writes (h : Passed c w now c') : c'.writes = c.writes := by
  cases h <;> simp [Course.writes, List.filterMap_cons, Happening.write?]

/-- The past of a write holds its arrival. -/
theorem arrived_mem_write (c : Course) (session : Nat) (request : Request) (now : Instant) :
    .arrived c.world.arrivals session request c.world.throttle.config.policy ∈
      (c.write session request now).past := by
  rcases written_write c session request now with hw | ⟨d, hw, -, heq⟩
  · exact hw.arrived_mem_iff.mpr (.inl ⟨rfl, rfl, rfl, rfl⟩)
  · rw [heq]
    exact (passed_pass d _ now).past_suffix.subset
      (hw.arrived_mem_iff.mpr (.inl ⟨rfl, rfl, rfl, rfl⟩))

/-! ## The request of the write itself -/

/-- A new write brings its request to one place. -/
theorem Written.places_self (h : Written c session request now c')
    (hnone : c.places c.world.arrivals = []) :
    ∃ p, c'.places c.world.arrivals = [p] ∧
      p.Keeps c' c.world.arrivals session request := by
  obtain ⟨hreached, hkept⟩ := List.append_eq_nil_iff.mp hnone
  have hpast : c.past.filterMap (Happening.place? c.world.arrivals) = [] := hreached
  have hwaiting : c.world.throttle.waiting.filter (·.ticket == c.world.arrivals) = [] :=
    List.map_eq_nil_iff.mp hkept
  cases h with
  | untouched hp | ready hp hv | passes hp hv =>
    refine ⟨.handed (.write session request), ?_, rfl⟩
    simp [places, reached, kept, List.filterMap_cons, Happening.place?, hpast, hwaiting]
  | lost hp hv =>
    refine ⟨.dropped, ?_, c.world.look session, by simp, hv⟩
    simp [places, reached, kept, List.filterMap_cons, Happening.place?, hpast, hwaiting]
  | rejected hp hv =>
    refine ⟨.returned (.overLimit request (c.world.report session)), ?_, rfl, rfl⟩
    simp [places, reached, kept, List.filterMap_cons, Happening.place?, hpast, hwaiting]
    rfl
  | waits hp hv | warnsAndWaits hp hv =>
    refine ⟨.held (c.newWaiter session request now), ?_, rfl, rfl⟩
    simp [places, reached, kept, List.filterMap_cons, Happening.place?, hpast, hwaiting,
      newWaiter]

/-- A pass leaves the request of its writer where it is or brings it to another place. -/
theorem Passed.places_self (h : Passed c w now c') (hheld : c.places w.ticket = [.held w])
    (hw : w ∈ c.world.throttle.waiting) :
    ∃ p, c'.places w.ticket = [p] ∧ p.Keeps c' w.ticket w.session w.request := by
  have hkept : .held w ∈ c.kept w.ticket :=
    List.mem_map_of_mem (List.mem_filter.mpr ⟨hw, beq_self_eq_true _⟩)
  have hpast : c.past.filterMap (Happening.place? w.ticket) = [] := by
    rcases List.append_eq_singleton_iff.mp hheld with ⟨hreached, -⟩ | ⟨-, hnil⟩
    · exact hreached
    · exact absurd (hnil ▸ hkept) List.not_mem_nil
  cases h with
  | stays hk => exact ⟨.held w, hheld, rfl, rfl⟩
  | goesOn hv =>
    refine ⟨.handed (.write w.session w.request), ?_, rfl⟩
    simp [places, reached, kept, List.filterMap_cons, Happening.place?, hpast]
  | givesUp hv hd hn =>
    refine ⟨.returned (.timedOut w.request (Duration.ofNanos (now - w.start))
      (c.world.report w.session)), ?_, rfl, rfl⟩
    simp [places, reached, kept, List.filterMap_cons, Happening.place?, hpast]
  | breaks hv =>
    refine ⟨.dropped, ?_, c.world.look w.session, by simp, hv⟩
    simp [places, reached, kept, List.filterMap_cons, Happening.place?, hpast]

/-! ## Every request is in one place -/

/-- The writes so far have the tickets that were given out. Each one has its request in
one place, no other ticket has any, and the calls that come from outside are no writes. -/
structure Tracked (c : Course) : Prop where
  counted : c.writes.map Prod.fst = (List.range c.world.arrivals).reverse
  unseen : ∀ t, c.world.arrivals ≤ t → c.places t = []
  placed : ∀ {t s r p}, .arrived t s r p ∈ c.past → ∃ q, c.places t = [q] ∧ q.Keeps c t s r
  outside : ∀ {s r}, .forwarded none (.write s r) ∉ c.past

namespace Tracked

theorem start (s : Settings) : Tracked (Course.start s) where
  counted := rfl
  unseen _ _ := rfl
  placed := by simp [Course.start]
  outside := by simp [Course.start]

theorem given (h : Tracked c) {t s : Nat} {r : Request} {p : Policy}
    (ha : .arrived t s r p ∈ c.past) : t < c.world.arrivals := by
  have hmem : t ∈ c.writes.map Prod.fst :=
    List.mem_map_of_mem (f := Prod.fst) (mem_writes.mpr ⟨s, p, ha⟩)
  rwa [h.counted, List.mem_reverse, List.mem_range] at hmem

/-- What is about no write leaves every request where it is. -/
theorem of_places_eq (h : Tracked c) (hworld : c'.world.arrivals = c.world.arrivals)
    (hsub : c.past <:+ c'.past) (hplaces : ∀ t, c'.places t = c.places t)
    (hwrites : c'.writes = c.writes)
    (harrived : ∀ {t s r p}, .arrived t s r p ∈ c'.past → .arrived t s r p ∈ c.past)
    (houtside : ∀ {s r}, .forwarded none (.write s r) ∈ c'.past →
      .forwarded none (.write s r) ∈ c.past) : Tracked c' where
  counted := by rw [hwrites, hworld, h.counted]
  unseen t ht := by rw [hplaces, h.unseen t (hworld ▸ ht)]
  placed {t _ _ _} ha := by
    obtain ⟨q, hq, hkeeps⟩ := h.placed (harrived ha)
    exact ⟨q, by rw [hplaces, hq], hkeeps.mono hsub⟩
  outside hf := h.outside (houtside hf)

theorem written (h : Tracked c) (hw : Written c session request now c') : Tracked c' := by
  have harrivals := hw.arrivals
  constructor
  case counted =>
    rw [hw.writes, List.map_cons, h.counted, harrivals, List.range_succ, List.reverse_append]
    rfl
  case unseen =>
    intro t ht
    rw [hw.places_of_ne (by omega)]
    exact h.unseen t (by omega)
  case placed =>
    intro t s r p ha
    rcases hw.arrived_mem_iff.mp ha with ⟨rfl, rfl, rfl, -⟩ | ha
    · exact hw.places_self (h.unseen _ (Nat.le_refl _))
    · obtain ⟨q, hq, hkeeps⟩ := h.placed ha
      refine ⟨q, ?_, hkeeps.mono hw.past_suffix⟩
      rw [hw.places_of_ne (Nat.ne_of_gt (h.given ha)), hq]
  case outside => cases hw <;> simp [h.outside]

theorem passed (h : Tracked c) (ho : Orderly c) (hw : w ∈ c.world.throttle.waiting)
    (hp : Passed c w now c') : Tracked c' := by
  have harrivals := hp.arrivals
  constructor
  case counted => rw [hp.writes, harrivals, h.counted]
  case unseen =>
    intro t ht
    have hgiven := ho.given w hw
    rw [hp.places_of_ne (by omega)]
    exact h.unseen t (harrivals ▸ ht)
  case placed =>
    intro t s r p ha
    obtain ⟨q, hq, hkeeps⟩ := h.placed (hp.arrived_mem_iff.mp ha)
    by_cases ht : w.ticket = t
    · -- the writer was held, so its request was in no other place
      have hheld : .held w ∈ c.places t := List.mem_append_right _
        (List.mem_map_of_mem (List.mem_filter.mpr ⟨hw, beq_iff_eq.mpr ht⟩))
      rw [hq, List.mem_singleton] at hheld
      subst ht hheld
      obtain ⟨rfl, rfl⟩ := hkeeps
      exact hp.places_self hq hw
    · exact ⟨q, by rw [hp.places_of_ne ht, hq], hkeeps.mono hp.past_suffix⟩
  case outside => cases hp <;> simp [h.outside, releaseTrail]

theorem move (ho : Orderly c) (h : Tracked c) (hm : Move c c') : Tracked c' := by
  cases hm with
  | surround config ledger stage numbering => exact ⟨h.counted, h.unseen, h.placed, h.outside⟩
  | write hw => exact h.written hw
  | pass hw hp => exact h.passed ho hw hp
  | wakeup _ =>
    exact h.of_places_eq rfl (List.suffix_cons _ _) (fun _ => rfl) rfl (by simp) (by simp)
  | call hcall =>
    refine h.of_places_eq rfl (List.suffix_cons _ _) (fun _ => rfl) rfl (by simp) ?_
    intro s r hf
    rcases List.mem_cons.mp hf with heq | hf
    · cases heq
      exact absurd rfl (hcall _ _)
    · exact hf
  | answer o =>
    exact h.of_places_eq rfl (List.suffix_cons _ _) (fun _ => rfl) rfl (by simp [answer])
      (by simp [answer])

/-- Requests that are written under one ticket each are found in no place of another one. -/
theorem eq_ticket_of_carries (h : Tracked c) (hnodup : (c.writes.map Prod.snd).Nodup)
    (hwrite : (ticket, request) ∈ c.writes) {t : Nat} {p : Place} (hp : p ∈ c.places t)
    (hcarries : p.Carries request) : t = ticket := by
  have hgiven : t < c.world.arrivals := by
    by_contra hn
    rw [h.unseen t (Nat.le_of_not_lt hn)] at hp
    exact List.not_mem_nil hp
  have hticket : t ∈ c.writes.map Prod.fst := by
    rw [h.counted, List.mem_reverse, List.mem_range]
    exact hgiven
  obtain ⟨⟨t', r⟩, hother, rfl⟩ := List.mem_map.mp hticket
  obtain ⟨s, policy, ha⟩ := mem_writes.mp hother
  obtain ⟨q, hq, hkeeps⟩ := h.placed ha
  rw [hq, List.mem_singleton] at hp
  have hr : request = r := hkeeps.eq_of_carries (hp ▸ hcarries)
  exact congrArg Prod.fst (List.inj_on_of_nodup_map hnodup hother hwrite hr.symm)

/-- The next stage is called with a write only for a ticket. -/
theorem write_not_mem_calls (h : Tracked c) (s : Nat) (r : Request) :
    (none, .write s r) ∉ c.calls := by
  intro hcall
  obtain ⟨x, hx, heq⟩ := List.mem_filterMap.mp hcall
  cases x with
  | forwarded t call =>
    cases heq
    exact h.outside (List.mem_reverse.mp hx)
  | _ => cases heq

end Tracked

theorem tracked_run (s : Settings) (actions : List Action) :
    Tracked ((Course.start s).run actions) :=
  invariant_run (P := Tracked) Tracked.move (.start s) (.start s) actions

/-! ## The requests that are made -/

end Course

/-- The request that an action makes, for a write, for a message that was sent, or for an
error that hands one back. -/
def Action.request? (w : World) : Action → Option Request
  | .write _ payload _ | .sent _ payload _ => some (w.issue payload).1
  | .exception _ cause _ => (w.raise cause).1.request?
  | .post _ | .configure _ | .direct _ | .expire .. | .wake _ | .closed .. => none

/-- A request gets the identity that is next. -/
theorem Action.id_of_request? {a : Action} {w : World} {r : Request}
    (h : a.request? w = some r) : r.id = w.numbering.next := by
  cases a with
  | post _ | configure _ | direct _ | expire _ _ | wake _ | closed _ _ => cases h
  | write session payload now | sent session payload m =>
    cases h
    rfl
  | exception session cause m =>
    cases cause with
    | overLimit payload report | timedOut payload waited report =>
      cases h
      rfl
    | config fault | transport fault detail | other text => cases h

namespace Course

variable {c : Course}

/-- The requests that are made in a run, in order. -/
def made (c : Course) : List Action → List Request
  | [] => []
  | a :: as => (a.request? c.world).toList ++ (c.step a).made as

theorem made_append (as bs : List Action) :
    c.made (as ++ bs) = c.made as ++ (c.run as).made bs := by
  induction as generalizing c with
  | nil => rfl
  | cons a as ih => simp only [List.cons_append, made, ih, run_cons, List.append_assoc]

/-- An action takes an identity for each request that it makes. -/
theorem numbering_step (a : Action) :
    (c.step a).world.numbering.next =
      c.world.numbering.next + UInt64.ofNat (a.request? c.world).toList.length := by
  have hkept : ∀ {d : Course}, d.world.ground = c.world.ground →
      d.world.numbering.next = c.world.numbering.next + UInt64.ofNat 0 := by
    intro d h
    rw [World.numbering_eq_of_ground h]
    exact (UInt64.add_zero _).symm
  cases a with
  | post entry | configure change | direct stage => exact (UInt64.add_zero _).symm
  | expire ticket now => exact hkept (ground_expire ticket now)
  | wake m | closed session m => exact hkept (d := c.wake m) (ground_wake m)
  | write session payload now =>
    exact congrArg (·.numbering.next) (ground_write (c := c.issuing payload) session _ now)
  | sent session payload m =>
    exact congrArg (·.numbering.next) (ground_wake (c := c.issuing payload) m)
  | exception session cause m =>
    have hwake : (c.step (.exception session cause m)).world.numbering =
        (c.world.raise cause).2.numbering :=
      congrArg (·.numbering) (ground_wake (c := c.alarmed session cause) m)
    rw [hwake]
    cases cause with
    | overLimit payload report | timedOut payload waited report => rfl
    | config fault | transport fault detail | other text => exact (UInt64.add_zero _).symm

/-- The identities of the requests that are made count up from the next one. -/
theorem ids_made (as : List Action) :
    (c.made as).map Request.id =
      (List.range (c.made as).length).map fun i => c.world.numbering.next + UInt64.ofNat i := by
  induction as generalizing c with
  | nil => rfl
  | cons a as ih =>
    rw [made, List.map_append, ih, numbering_step]
    cases hr : a.request? c.world with
    | none => simp
    | some r =>
      simp [List.range_succ_eq_map, Action.id_of_request? hr, UInt64.add_assoc,
        UInt64.add_comm 1]

/-- While the identities do not run out, each request has a larger one than those before
it. -/
theorem ascending_made (s : Settings) (as : List Action)
    (h : ((Course.start s).made as).length < UInt64.size) :
    ((Course.start s).made as).Pairwise (·.id < ·.id) := by
  rw [← List.pairwise_map (R := (· < ·)), ids_made, List.pairwise_map]
  refine List.pairwise_lt_range.imp_of_mem ?_
  intro i j hi hj hlt
  have hfirst : (Course.start s).world.numbering.next = 1 := rfl
  have hsize : UInt64.size = 0x1_0000_0000_0000_0000 := rfl
  rw [List.mem_range] at hi hj
  rw [hfirst, UInt64.lt_iff_toNat_lt, UInt64.toNat_add, UInt64.toNat_add,
    UInt64.toNat_ofNat_of_lt' (by omega), UInt64.toNat_ofNat_of_lt' (by omega), UInt64.toNat_one]
  omega

/-- The requests that are written are among those that are made, in the same order. -/
theorem writes_step (a : Action) :
    ∃ new, (c.step a).writes = new ++ c.writes ∧
      (new.map Prod.snd).reverse.Sublist (a.request? c.world).toList := by
  have hwake : ∀ (d : Course) m, (d.wake m).writes = d.writes := by
    intro d m
    exact reading_wake (f := Course.writes) Passed.writes (fun _ => rfl) m
  have hexpire : ∀ ticket now, (c.expire ticket now).writes = c.writes := by
    intro ticket now
    exact reading_expire (f := Course.writes) Passed.writes ticket now
  cases a with
  | post entry | configure change | direct stage => exact ⟨[], rfl, List.nil_sublist _⟩
  | expire ticket now => exact ⟨[], hexpire ticket now, List.nil_sublist _⟩
  | wake m | closed session m => exact ⟨[], hwake c m, List.nil_sublist _⟩
  | sent session payload m => exact ⟨[], hwake (c.issuing payload) m, List.nil_sublist _⟩
  | exception session cause m =>
    exact ⟨[], hwake (c.alarmed session cause) m, List.nil_sublist _⟩
  | write session payload now =>
    exact ⟨[_], reading_write (c := c.issuing payload) (f := Course.writes) Written.writes
      Passed.writes, List.Sublist.refl _⟩

theorem writes_run (as : List Action) :
    ∃ new, (c.run as).writes = new ++ c.writes ∧
      (new.map Prod.snd).reverse.Sublist (c.made as) := by
  induction as generalizing c with
  | nil => exact ⟨[], rfl, List.Sublist.refl _⟩
  | cons a as ih =>
    obtain ⟨new, hnew, hsub⟩ := writes_step (c := c) a
    obtain ⟨newer, hnewer, hsubs⟩ := ih (c := c.step a)
    refine ⟨newer ++ new, by rw [run_cons, hnewer, hnew, List.append_assoc], ?_⟩
    rw [List.map_append, List.reverse_append, made]
    exact hsub.append hsubs

/-- While the identities do not run out, no two writes have the same request. -/
theorem nodup_writes (s : Settings) (as : List Action)
    (h : ((Course.start s).made as).length < UInt64.size) :
    (((Course.start s).run as).writes.map Prod.snd).Nodup := by
  obtain ⟨new, hnew, hsub⟩ := writes_run (c := Course.start s) as
  have hnil : (Course.start s).writes = [] := rfl
  rw [hnew, hnil, List.append_nil, ← List.nodup_reverse]
  refine ((ascending_made s as h).sublist hsub).imp ?_
  intro q r hlt heq
  rw [heq] at hlt
  exact absurd hlt (UInt64.lt_irrefl _)

/-! ## Runs -/

/-- In every course of a run the request of a write is in one place: handed to the next
stage once, returned in one refusal, held with one writer, or dropped. It is there with
the identity and the bytes that it was made with, and no write reaches the next stage from
elsewhere. While the identities last, those of all requests of the run ascend, and the
request is found in no place of another write. -/
theorem request_in_one_place (s : Settings) (before after : List Action) (session : Nat)
    (payload : Payload) (now : Instant) :
    let c := (Course.start s).run before
    let ticket := c.world.arrivals
    let request := (c.world.issue payload).1
    let actions := before ++ .write session payload now :: after
    let made := (Course.start s).made actions
    let d := (Course.start s).run actions
    (∃ p, d.places ticket = [p] ∧ p.Keeps d ticket session request) ∧
      request.payload = payload ∧ request ∈ made ∧
      (∀ x r, (none, .write x r) ∉ d.calls) ∧
      (made.length < UInt64.size →
        made.Pairwise (·.id < ·.id) ∧
          ∀ t, ∀ p ∈ d.places t, p.Carries request → t = ticket) := by
  intro c ticket request actions made d
  have htracked : Tracked d := tracked_run s actions
  have harrived : .arrived ticket session request c.world.throttle.config.policy ∈ d.past := by
    have hd : d = (c.step (.write session payload now)).run after := by
      rw [← run_cons, ← run_append]
    rw [hd]
    refine (past_suffix_run ((orderly_run s before).step _) after).subset ?_
    exact arrived_mem_write (c.issuing payload) session request now
  have hmade : request ∈ made := by
    change request ∈ (Course.start s).made (before ++ .write session payload now :: after)
    rw [made_append, Course.made]
    exact List.mem_append_right _ (List.mem_append_left _ (List.mem_singleton.mpr rfl))
  refine ⟨htracked.placed harrived, rfl, hmade, htracked.write_not_mem_calls, ?_⟩
  intro hfew
  refine ⟨ascending_made s actions hfew, ?_⟩
  intro t p hp hcarries
  exact htracked.eq_ticket_of_carries (nodup_writes s actions hfew)
    (mem_writes.mpr ⟨_, _, harrived⟩) hp hcarries

/-- A write is held on a full session and reaches the next stage once its session drained. -/
theorem request_in_one_place_drained :
    let s : Settings := { policy := .block, limits := ⟨1, 0, 0, 0⟩ }
    let before : List Action :=
      [.post .openService, .post (.openSession 0), .post (.schedule 0 10)]
    let after : List Action := [.post (.complete 0 10), .wake { now := 9 }]
    let actions := before ++ .write 0 [7] 5 :: after
    let d := (Course.start s).run actions
    d.places 0 = [.handed (.write 0 ⟨1, [7]⟩)] ∧
      ((Course.start s).made actions).Pairwise (·.id < ·.id) ∧
      ∀ t, ∀ p ∈ d.places t, p.Carries ⟨1, [7]⟩ → t = 0 := by
  intro s before after actions d
  have hfew : ((Course.start s).made actions).length < UInt64.size := by decide
  exact ⟨by decide, (request_in_one_place s before after 0 [7] 5).2.2.2.2 hfew⟩

end Course

end Backpressure.Pipeline
