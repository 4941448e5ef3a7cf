import Backpressure.Pipeline.Run
import Mathlib.Logic.Relation
import Mathlib.Data.List.Nodup
set_option autoImplicit false

/-!
# The moves of a pipeline

One action may do several things in a row: a wake counts itself and then sends every
held writer through a pass of its own. A `Move` is one of these things. Each action is a
sequence of moves, so a property that every move keeps holds after every run, and the
cases of `Move` are all that its proof has to look at.

Between two moves a throttle is `Orderly`: the held writers stand in the order of their
tickets, and their number is the one that the throttle keeps.
-/

namespace Backpressure.Pipeline

/-! ## The ground of a world -/

namespace World

/-- What neither a write nor a pass changes: configuration, ledger, next stage and
numbering, with the number of writes so far. -/
def ground (w : World) : World := { w with throttle := { config := w.throttle.config } }

/-- A pass at some time would leave a writer held. -/
def keeps (w : World) (x : Waiter) (now : Instant) : Bool :=
  decide (Wait.pass x.deadline (w.verdict x.session) now = .stays)

/-- Sessions look the same in worlds with the same ground. -/
theorem verdict_eq_of_ground {v w : World} (h : v.ground = w.ground) (session : Nat) :
    v.verdict session = w.verdict session := by
  calc v.verdict session = v.ground.verdict session := rfl
    _ = w.ground.verdict session := by rw [h]
    _ = w.verdict session := rfl

theorem keeps_eq_of_ground {v w : World} (h : v.ground = w.ground) (x : Waiter)
    (now : Instant) : v.keeps x now = w.keeps x now := by
  simp only [keeps, verdict_eq_of_ground h]

theorem keeps_iff {w : World} {x : Waiter} {now : Instant} :
    w.keeps x now = true ↔
      w.verdict x.session = .flooded ∧ ∀ d, x.deadline = some d → now < d := by
  rw [keeps, decide_eq_true_iff, Wait.pass_eq_stays_iff]

theorem numbering_eq_of_ground {v w : World} (h : v.ground = w.ground) :
    v.numbering = w.numbering := by
  change v.ground.numbering = w.ground.numbering
  rw [h]

theorem stage_eq_of_ground {v w : World} (h : v.ground = w.ground) : v.stage = w.stage := by
  change v.ground.stage = w.ground.stage
  rw [h]

end World

namespace Course

/-! ## What the parts of a write do -/

section Parts

variable (c : Course) (w : Waiter) (ticket session : Nat) (request : Request) (now : Instant)

@[simp] theorem world_note (h : Happening) : (c.note h).world = c.world := rfl

@[simp] theorem past_note (h : Happening) : (c.note h).past = h :: c.past := rfl

@[simp] theorem ground_record (r : Record) : (c.record r).world.ground = c.world.ground := rfl

@[simp] theorem throttle_record (r : Record) :
    (c.record r).world.throttle = c.world.throttle.record r := rfl

@[simp] theorem past_record (r : Record) : (c.record r).past = .recorded r :: c.past := rfl

@[simp] theorem world_finish (e : Ending) : (c.finish ticket e).world = c.world := rfl

@[simp] theorem past_finish (e : Ending) :
    (c.finish ticket e).past = .ended ticket e :: c.past := rfl

@[simp] theorem world_forward : (c.forward ticket session request).world = c.world := rfl

@[simp] theorem past_forward :
    (c.forward ticket session request).past =
      .ended ticket (.forwarded (c.world.stage.outcome (.write session request))) ::
        .forwarded (some ticket) (.write session request) :: c.past := rfl

@[simp] theorem ground_reject :
    (c.reject ticket session request).world.ground = c.world.ground := rfl

@[simp] theorem throttle_reject :
    (c.reject ticket session request).world.throttle = c.world.throttle.record .rejected := rfl

@[simp] theorem past_reject :
    (c.reject ticket session request).past =
      .ended ticket (.refused (.overLimit request (c.world.report session))) ::
        .recorded .rejected :: c.past := rfl

@[simp] theorem ground_enter (bound : Option Duration) :
    (c.enter w bound).world.ground = c.world.ground := rfl

@[simp] theorem throttle_enter (bound : Option Duration) :
    (c.enter w bound).world.throttle = c.world.throttle.enter w := rfl

@[simp] theorem past_enter (bound : Option Duration) :
    (c.enter w bound).past = .entered w.ticket bound :: c.past := rfl

@[simp] theorem ground_leave (e : Option WaitEnd) :
    (c.leave w e).world.ground = c.world.ground := rfl

@[simp] theorem throttle_leave (e : Option WaitEnd) :
    (c.leave w e).world.throttle = c.world.throttle.leave w := rfl

@[simp] theorem past_leave (e : Option WaitEnd) :
    (c.leave w e).past = .left w.ticket e :: c.past := rfl

/-- What happens, latest first, when a throttled write asks for a warning. -/
def warnTrail : List Happening :=
  let interval := c.world.throttle.config.logInterval
  let admitted := (c.world.throttle.gate.ask now interval).2
  (if admitted then
    [.traced ticket (.warning (c.world.ledger.idOf session) (c.world.report session))]
  else []) ++ [.recorded (.warning admitted), .asked ticket now interval admitted]

@[simp] theorem mem_warnTrail {h : Happening} :
    h ∈ c.warnTrail ticket session now ↔
      (c.world.throttle.gate.ask now c.world.throttle.config.logInterval).2 = true ∧
          h = .traced ticket
            (.warning (c.world.ledger.idOf session) (c.world.report session)) ∨
        h = .recorded
          (.warning (c.world.throttle.gate.ask now c.world.throttle.config.logInterval).2) ∨
        h = .asked ticket now c.world.throttle.config.logInterval
          (c.world.throttle.gate.ask now c.world.throttle.config.logInterval).2 := by
  simp [warnTrail]

/-- A reading of the past that passes over questions, warnings and the trace passes over
all that a warning leaves behind. -/
theorem warnTrail_append {α : Type} {f : List Happening → α}
    (hasked : ∀ n i b past, f (.asked ticket n i b :: past) = f past)
    (hwarning : ∀ b past, f (.recorded (.warning b) :: past) = f past)
    (htraced : ∀ e past, f (.traced ticket e :: past) = f past) (past : List Happening) :
    f (c.warnTrail ticket session now ++ past) = f past := by
  unfold warnTrail
  dsimp only
  split
  · exact (htraced _ _).trans ((hwarning _ _).trans (hasked _ _ _ _))
  · exact (hwarning _ _).trans (hasked _ _ _ _)

/-- What such a reading finds in nothing it finds in what a warning leaves behind. -/
theorem warnTrail_eq {α : Type} {f : List Happening → α}
    (hasked : ∀ n i b past, f (.asked ticket n i b :: past) = f past)
    (hwarning : ∀ b past, f (.recorded (.warning b) :: past) = f past)
    (htraced : ∀ e past, f (.traced ticket e :: past) = f past) :
    f (c.warnTrail ticket session now) = f [] := by
  rw [← List.append_nil (c.warnTrail ticket session now)]
  exact c.warnTrail_append ticket session now hasked hwarning htraced []

@[simp] theorem past_warn :
    (c.warn ticket session now).past = c.warnTrail ticket session now ++ c.past := by
  simp only [warn, warnTrail]
  split <;> rfl

@[simp] theorem throttle_warn :
    (c.warn ticket session now).world.throttle =
      { c.world.throttle with
        gate := (c.world.throttle.gate.ask now c.world.throttle.config.logInterval).1
        counters := c.world.throttle.counters.record
          (.warning (c.world.throttle.gate.ask now c.world.throttle.config.logInterval).2) } := by
  simp only [warn]
  split <;> rfl

@[simp] theorem ground_warn :
    (c.warn ticket session now).world.ground = c.world.ground := by
  simp only [warn]
  split <;> rfl

/-- The end of a wait, latest first, up to what comes of the write. -/
def releaseTrail (e : WaitEnd) : List Happening :=
  let waited := Duration.ofNanos (now - w.start)
  [.traced w.ticket (.released (c.world.ledger.idOf w.session) waited e),
   .recorded (.blocked waited), .left w.ticket (some e)]

@[simp] theorem past_release_ready :
    (c.release w .ready now).past =
      .ended w.ticket (.forwarded (c.world.stage.outcome (.write w.session w.request))) ::
        .forwarded (some w.ticket) (.write w.session w.request) ::
        (c.releaseTrail w now .ready ++ c.past) := rfl

@[simp] theorem past_release_timedOut :
    (c.release w .timedOut now).past =
      .ended w.ticket (.refused (.timedOut w.request (Duration.ofNanos (now - w.start))
        (c.world.report w.session))) ::
        .recorded .timedOut :: (c.releaseTrail w now .timedOut ++ c.past) := rfl

@[simp] theorem throttle_release_ready :
    (c.release w .ready now).world.throttle =
      (c.world.throttle.leave w).record (.blocked (Duration.ofNanos (now - w.start))) := rfl

@[simp] theorem throttle_release_timedOut :
    (c.release w .timedOut now).world.throttle =
      ((c.world.throttle.leave w).record (.blocked (Duration.ofNanos (now - w.start)))).record
        .timedOut := rfl

@[simp] theorem ground_release (e : WaitEnd) :
    (c.release w e now).world.ground = c.world.ground := by
  cases e <;> rfl

end Parts

/-! ## Passes -/

/-- A course after a held writer had its session looked at. -/
def lookAgain (c : Course) (w : Waiter) : Course :=
  c.note (.looked w.ticket w.session (c.world.look w.session))

@[simp] theorem world_lookAgain (c : Course) (w : Waiter) :
    (c.lookAgain w).world = c.world := rfl

@[simp] theorem past_lookAgain (c : Course) (w : Waiter) :
    (c.lookAgain w).past =
      .looked w.ticket w.session (c.world.look w.session) :: c.past := rfl

/-- The ways in which a pass of a held writer may go. -/
inductive Passed (c : Course) (w : Waiter) (now : Instant) : Course → Prop
  /-- The session is over a limit, and the deadline has not come. -/
  | stays (hk : c.world.keeps w now = true) : Passed c w now (c.lookAgain w)
  /-- The session is ready. -/
  | goesOn (hv : c.world.verdict w.session = .ready) :
      Passed c w now ((c.lookAgain w).release w .ready now)
  /-- The session is over a limit, and the deadline has come. -/
  | givesUp (hv : c.world.verdict w.session = .flooded) {d : Instant}
      (hd : w.deadline = some d) (hn : d ≤ now) :
      Passed c w now ((c.lookAgain w).release w .timedOut now)
  /-- The session cannot be read. -/
  | breaks (hv : c.world.verdict w.session = .unreadable) :
      Passed c w now (((c.lookAgain w).leave w none).finish w.ticket .lost)

theorem passed_pass (c : Course) (w : Waiter) (now : Instant) : Passed c w now (c.pass w now) := by
  unfold pass
  dsimp only
  split
  case h_1 hp => exact .stays (decide_eq_true hp)
  case h_2 e hp =>
    cases e with
    | ready => exact .goesOn (Wait.pass_eq_ready_iff.mp hp)
    | timedOut =>
      obtain ⟨hv, d, hd, hn⟩ := Wait.pass_eq_timedOut_iff.mp hp
      exact .givesUp hv hd hn
  case h_3 hp => exact .breaks (Wait.pass_eq_breaks_iff.mp hp)

namespace Passed

variable {c c' : Course} {w : Waiter} {now : Instant}

theorem ground (h : Passed c w now c') : c'.world.ground = c.world.ground := by
  cases h <;> simp

theorem arrivals (h : Passed c w now c') : c'.world.arrivals = c.world.arrivals := by
  have hground := congrArg World.arrivals h.ground
  exact hground

theorem held (h : Passed c w now c') :
    c'.world.throttle.held =
      if c.world.keeps w now then c.world.throttle.held else c.world.throttle.held - 1 := by
  cases h with
  | stays hk => simp [hk]
  | goesOn hv => simp [World.keeps, hv, Wait.pass]
  | givesUp hv hd hn => simp [World.keeps, hv, hd, hn, Wait.pass]
  | breaks hv => simp [World.keeps, hv, Wait.pass]

/-- A pass takes its writer off the waiting ones unless it stays, and no other writer. -/
theorem waiting (h : Passed c w now c') :
    c'.world.throttle.waiting =
      if c.world.keeps w now then c.world.throttle.waiting
      else c.world.throttle.waiting.filter (·.ticket != w.ticket) := by
  cases h with
  | stays hk => simp [hk]
  | goesOn hv => simp [World.keeps, hv, Wait.pass]
  | givesUp hv hd hn => simp [World.keeps, hv, hd, hn, Wait.pass]
  | breaks hv => simp [World.keeps, hv, Wait.pass]

theorem mem_waiting (h : Passed c w now c') {x : Waiter} (hx : x ∈ c.world.throttle.waiting)
    (hne : x.ticket ≠ w.ticket) : x ∈ c'.world.throttle.waiting := by
  rw [h.waiting]
  split
  · exact hx
  · exact List.mem_filter.mpr ⟨hx, by simpa using hne⟩

end Passed

/-! ## Writes -/

section Write

variable (c : Course) (session : Nat) (request : Request) (now : Instant)

@[simp] theorem past_arrive :
    (c.arrive session request).past =
      .arrived c.world.arrivals session request c.world.throttle.config.policy :: c.past := rfl

@[simp] theorem throttle_arrive :
    (c.arrive session request).world.throttle = c.world.throttle := rfl

@[simp] theorem ground_arrive :
    (c.arrive session request).world.ground =
      { c.world.ground with arrivals := c.world.arrivals + 1 } := rfl

/-- A course after a new write had its session looked at. -/
def lookFirst : Course :=
  (c.arrive session request).note (.looked c.world.arrivals session (c.world.look session))

/-- A course after a new write turned out to be throttled. -/
def throttled (policy : Policy) : Course :=
  ((c.lookFirst session request).note (.throttled c.world.arrivals policy)).record .throttled

@[simp] theorem past_lookFirst :
    (c.lookFirst session request).past =
      .looked c.world.arrivals session (c.world.look session) ::
        .arrived c.world.arrivals session request c.world.throttle.config.policy :: c.past := rfl

@[simp] theorem throttle_lookFirst :
    (c.lookFirst session request).world.throttle = c.world.throttle := rfl

@[simp] theorem ground_lookFirst :
    (c.lookFirst session request).world.ground =
      { c.world.ground with arrivals := c.world.arrivals + 1 } := rfl

@[simp] theorem past_throttled (policy : Policy) :
    (c.throttled session request policy).past =
      .recorded .throttled :: .throttled c.world.arrivals policy ::
        (c.lookFirst session request).past := rfl

@[simp] theorem throttle_throttled (policy : Policy) :
    (c.throttled session request policy).world.throttle =
      c.world.throttle.record .throttled := rfl

@[simp] theorem ground_throttled (policy : Policy) :
    (c.throttled session request policy).world.ground =
      { c.world.ground with arrivals := c.world.arrivals + 1 } := rfl

/-- The waiter that a new write becomes if it is held. -/
def newWaiter : Waiter where
  ticket := c.world.arrivals
  session := session
  request := request
  start := now
  deadline := Wait.deadline now c.world.throttle.config.blockTimeout

/-- A course after the waiter of a new write started to wait. -/
def await (w : Waiter) : Course :=
  (c.note (.traced w.ticket (.holding (c.world.ledger.idOf w.session)))).enter w
    c.world.throttle.config.blockTimeout

@[simp] theorem past_await (w : Waiter) :
    (c.await w).past =
      .entered w.ticket c.world.throttle.config.blockTimeout ::
        .traced w.ticket (.holding (c.world.ledger.idOf w.session)) :: c.past := rfl

@[simp] theorem throttle_await (w : Waiter) :
    (c.await w).world.throttle = c.world.throttle.enter w := rfl

@[simp] theorem ground_await (w : Waiter) : (c.await w).world.ground = c.world.ground := rfl

/-- The ways in which a write may go, up to the start of its wait if it is held. -/
inductive Written : Course → Prop
  /-- The policy is off. -/
  | untouched (hp : c.world.throttle.config.policy = .off) :
      Written ((c.arrive session request).forward c.world.arrivals session request)
  /-- The session is ready. -/
  | ready (hp : c.world.throttle.config.policy ≠ .off) (hv : c.world.verdict session = .ready) :
      Written ((c.lookFirst session request).forward c.world.arrivals session request)
  /-- The session cannot be read. -/
  | lost (hp : c.world.throttle.config.policy ≠ .off)
      (hv : c.world.verdict session = .unreadable) :
      Written ((c.lookFirst session request).finish c.world.arrivals .lost)
  /-- The session is over a limit, and the write passes with a warning. -/
  | passes (hp : c.world.throttle.config.policy = .log)
      (hv : c.world.verdict session = .flooded) :
      Written (((c.throttled session request .log).warn c.world.arrivals session now).forward
        c.world.arrivals session request)
  /-- The session is over a limit, and the write is refused. -/
  | rejected (hp : c.world.throttle.config.policy = .exception)
      (hv : c.world.verdict session = .flooded) :
      Written ((c.throttled session request .exception).reject c.world.arrivals session request)
  /-- The session is over a limit, and the writer starts to wait. -/
  | waits (hp : c.world.throttle.config.policy = .block)
      (hv : c.world.verdict session = .flooded) :
      Written ((c.throttled session request .block).await (c.newWaiter session request now))
  /-- The session is over a limit, and the writer starts to wait, with a warning. -/
  | warnsAndWaits (hp : c.world.throttle.config.policy = .logAndBlock)
      (hv : c.world.verdict session = .flooded) :
      Written (((c.throttled session request .logAndBlock).warn c.world.arrivals session
        now).await (c.newWaiter session request now))

end Write

section Write

variable {c : Course} {session : Nat} {request : Request} {now : Instant}

theorem Written.ground {c c' : Course} {session : Nat} {request : Request} {now : Instant}
    (h : Written c session request now c') :
    c'.world.ground = { c.world.ground with arrivals := c.world.arrivals + 1 } := by
  cases h <;> simp

theorem Written.arrivals {c c' : Course} {session : Nat} {request : Request} {now : Instant}
    (h : Written c session request now c') : c'.world.arrivals = c.world.arrivals + 1 :=
  congrArg World.arrivals h.ground

/-- Holding a writer makes it wait and then sends it through its first pass. -/
theorem hold_eq {d : Course} (h : d.world.throttle.config = c.world.throttle.config) :
    d.hold c.world.arrivals session request now =
      (d.await (c.newWaiter session request now)).pass (c.newWaiter session request now) now := by
  simp only [hold, await, newWaiter, h]

theorem write_of_off (hp : c.world.throttle.config.policy = .off) :
    c.write session request now =
      (c.arrive session request).forward c.world.arrivals session request := dif_pos hp

theorem write_of_ready (hp : c.world.throttle.config.policy ≠ .off)
    (hv : c.world.verdict session = .ready) :
    c.write session request now =
      (c.lookFirst session request).forward c.world.arrivals session request := by
  have hlook : ((c.arrive session request).world.look session).verdict = .ready := hv
  rw [write, dif_neg hp, consider, hlook]
  rfl

theorem write_of_unreadable (hp : c.world.throttle.config.policy ≠ .off)
    (hv : c.world.verdict session = .unreadable) :
    c.write session request now =
      (c.lookFirst session request).finish c.world.arrivals .lost := by
  have hlook : ((c.arrive session request).world.look session).verdict = .unreadable := hv
  rw [write, dif_neg hp, consider, hlook]
  rfl

theorem write_of_flooded {p : Policy} (hp : c.world.throttle.config.policy = p) (hon : p ≠ .off)
    (hv : c.world.verdict session = .flooded) :
    c.write session request now =
      (c.lookFirst session request).act p hon c.world.arrivals session request now := by
  subst hp
  have hlook : ((c.arrive session request).world.look session).verdict = .flooded := hv
  rw [write, dif_neg hon, consider, hlook]
  rfl

/-- A write goes in one of the ways of `Written`, and then through a first pass if its
writer waits. -/
theorem written_write (c : Course) (session : Nat) (request : Request) (now : Instant) :
    Written c session request now (c.write session request now) ∨
      ∃ d, Written c session request now d ∧
        d.world.throttle.waiting =
          c.world.throttle.waiting ++ [c.newWaiter session request now] ∧
        c.write session request now = d.pass (c.newWaiter session request now) now := by
  by_cases hoff : c.world.throttle.config.policy = .off
  · rw [write_of_off hoff]
    exact .inl (.untouched hoff)
  cases hv : c.world.verdict session with
  | ready =>
    rw [write_of_ready hoff hv]
    exact .inl (.ready hoff hv)
  | unreadable =>
    rw [write_of_unreadable hoff hv]
    exact .inl (.lost hoff hv)
  | flooded =>
    cases hp : c.world.throttle.config.policy with
    | off => exact absurd hp hoff
    | log =>
      rw [write_of_flooded hp nofun hv]
      exact .inl (.passes hp hv)
    | exception =>
      rw [write_of_flooded hp nofun hv]
      exact .inl (.rejected hp hv)
    | block =>
      rw [write_of_flooded hp nofun hv]
      exact .inr ⟨_, .waits hp hv, rfl, hold_eq rfl⟩
    | logAndBlock =>
      rw [write_of_flooded hp nofun hv]
      refine .inr ⟨_, .warnsAndWaits hp hv, ?_, hold_eq ?_⟩
      · simp
      · simp

end Write

/-! ## What writes and passes leave alone -/

section Preserved

variable {P : Course → Prop}

/-- What every way of a write brings about and every pass keeps holds after the write. -/
theorem preserved_write {c : Course} {session : Nat} {request : Request} {now : Instant}
    (hwritten : ∀ {d}, Written c session request now d → P d)
    (hpassed : ∀ {c d w now}, Passed c w now d → P c → P d) :
    P (c.write session request now) := by
  rcases written_write c session request now with hw | ⟨d, hw, -, heq⟩
  · exact hwritten hw
  · rw [heq]
    exact hpassed (passed_pass d _ now) (hwritten hw)

variable (hpassed : ∀ {c d w now}, Passed c w now d → P c → P d)
include hpassed

/-- What every pass keeps holds after several passes. -/
theorem preserved_passAll {c : Course} (ws : List Waiter) (turn : Nat → Instant) (h : P c) :
    P (c.passAll ws turn) := by
  induction ws generalizing c with
  | nil => exact h
  | cons w ws ih => exact ih (hpassed (passed_pass c w _) h)

theorem preserved_wake {c : Course} (hrecord : ∀ c : Course, P c → P (c.record .wakeup))
    (m : Moment) (h : P c) : P (c.wake m) := by
  unfold wake
  split
  · exact h
  · exact preserved_passAll hpassed _ _ (hrecord c h)

theorem preserved_expire {c : Course} (ticket : Nat) (now : Instant) (h : P c) :
    P (c.expire ticket now) := by
  unfold expire
  split
  · exact h
  · split
    · exact hpassed (passed_pass c _ now) h
    · exact h

end Preserved

section Reading

variable {α : Type} {f : Course → α}

/-- What every way of a write brings about is brought about by the write, if no pass
changes it. -/
theorem reading_write {c : Course} {session : Nat} {request : Request} {now : Instant} {a : α}
    (hwritten : ∀ {d}, Written c session request now d → f d = a)
    (hpassed : ∀ {c d w now}, Passed c w now d → f d = f c) :
    f (c.write session request now) = a :=
  preserved_write (P := fun d => f d = a) hwritten fun hp h => (hpassed hp).trans h

variable (hpassed : ∀ {c d w now}, Passed c w now d → f d = f c)
include hpassed

/-- What no pass changes is not changed by several passes. -/
theorem reading_passAll {c : Course} (ws : List Waiter) (turn : Nat → Instant) :
    f (c.passAll ws turn) = f c :=
  preserved_passAll (P := fun d => f d = f c) (fun hp h => (hpassed hp).trans h) ws turn rfl

theorem reading_wake {c : Course} (hrecord : ∀ c : Course, f (c.record .wakeup) = f c)
    (m : Moment) : f (c.wake m) = f c :=
  preserved_wake (P := fun d => f d = f c) (fun hp h => (hpassed hp).trans h)
    (fun d h => (hrecord d).trans h) m rfl

theorem reading_expire {c : Course} (ticket : Nat) (now : Instant) :
    f (c.expire ticket now) = f c :=
  preserved_expire (P := fun d => f d = f c) (fun hp h => (hpassed hp).trans h) ticket now rfl

end Reading

section Ground

variable {c : Course}

theorem ground_write (session : Nat) (request : Request) (now : Instant) :
    (c.write session request now).world.ground =
      { c.world.ground with arrivals := c.world.arrivals + 1 } :=
  reading_write (f := fun c => c.world.ground) Written.ground Passed.ground

theorem ground_wake (m : Moment) : (c.wake m).world.ground = c.world.ground :=
  reading_wake (f := fun c => c.world.ground) Passed.ground (fun _ => rfl) m

theorem ground_expire (ticket : Nat) (now : Instant) :
    (c.expire ticket now).world.ground = c.world.ground :=
  reading_expire (f := fun c => c.world.ground) Passed.ground ticket now

end Ground

/-! ## Moves -/

/-- One thing that a pipeline does. -/
inductive Move (c : Course) : Course → Prop
  /-- Something around the writes changes. -/
  | surround (config : Config) (ledger : Ledger) (stage : Stage) (numbering : Numbering) :
      Move c
        { c with
          world :=
            { c.world with
              throttle := { c.world.throttle with config := config }
              ledger := ledger, stage := stage, numbering := numbering } }
  /-- A write comes to its end or starts to wait. -/
  | write {c' : Course} {session : Nat} {request : Request} {now : Instant}
      (h : Written c session request now c') : Move c c'
  /-- A held writer goes through a pass. -/
  | pass {c' : Course} {w : Waiter} {now : Instant} (hw : w ∈ c.world.throttle.waiting)
      (h : Passed c w now c') : Move c c'
  /-- A wake that finds held writers is counted. -/
  | wakeup (h : c.world.throttle.waiting ≠ []) : Move c (c.record .wakeup)
  /-- The next stage is called from outside a write. -/
  | call {call : Call} (h : ∀ session request, call ≠ .write session request) :
      Move c (c.note (.forwarded none call))
  /-- A call from outside a write comes to its end. -/
  | answer (o : Outcome) : Move c (c.answer o)

/-- One or more things that a pipeline does in a row. -/
abbrev Moves : Course → Course → Prop := Relation.ReflTransGen Move

/-- A move of the writes, with everything around them left as it is. -/
inductive Stir (c : Course) : Course → Prop
  /-- A write comes to its end or starts to wait. -/
  | write {c' : Course} {session : Nat} {request : Request} {now : Instant}
      (h : Written c session request now c') : Stir c c'
  /-- A held writer goes through a pass. -/
  | pass {c' : Course} {w : Waiter} {now : Instant} (hw : w ∈ c.world.throttle.waiting)
      (h : Passed c w now c') : Stir c c'
  /-- A wake that finds held writers is counted. -/
  | wakeup (h : c.world.throttle.waiting ≠ []) : Stir c (c.record .wakeup)

/-- One or more moves of the writes in a row. -/
abbrev Stirs : Course → Course → Prop := Relation.ReflTransGen Stir

theorem Stir.move {c c' : Course} (h : Stir c c') : Move c c' := by
  cases h with
  | write hw => exact .write hw
  | pass hw hp => exact .pass hw hp
  | wakeup hwaiting => exact .wakeup hwaiting

theorem Stirs.moves {c d : Course} (h : Stirs c d) : Moves c d :=
  Relation.ReflTransGen.mono (fun _ _ => Stir.move) _ _ h

/-! ## Growth of the past -/

theorem suffix_cons_of_suffix {earlier later : List Happening} (h : earlier <:+ later)
    (next : Happening) : earlier <:+ next :: later := h.trans (List.suffix_cons next later)

theorem Written.past_suffix {c c' : Course} {session : Nat} {request : Request} {now : Instant}
    (h : Written c session request now c') : c.past <:+ c'.past := by
  cases h <;>
    simp only [past_forward, past_finish, past_reject, past_await, past_warn, past_throttled,
      past_lookFirst, past_arrive]
  all_goals
    repeat first
      | exact List.suffix_rfl
      | apply suffix_cons_of_suffix
      | apply List.suffix_append_of_suffix

theorem Passed.past_suffix {c c' : Course} {w : Waiter} {now : Instant}
    (h : Passed c w now c') : c.past <:+ c'.past := by
  cases h <;>
    simp only [past_finish, past_leave, past_release_ready, past_release_timedOut,
      past_lookAgain]
  all_goals
    repeat first
      | exact List.suffix_rfl
      | apply suffix_cons_of_suffix
      | apply List.suffix_append_of_suffix

/-- A move adds to the past and takes nothing back. -/
theorem Move.past_suffix {c c' : Course} (h : Move c c') : c.past <:+ c'.past := by
  cases h with
  | surround config ledger stage numbering => exact List.suffix_rfl
  | write hw => exact hw.past_suffix
  | pass _ hp => exact hp.past_suffix
  | wakeup _ => exact List.suffix_cons _ _
  | call _ => exact List.suffix_cons _ _
  | answer _ => exact List.suffix_cons _ _

/-- The past of a write holds its arrival beside what was there. -/
theorem Written.arrived_mem_iff {c c' : Course} {session : Nat} {request : Request}
    {now : Instant} (h : Written c session request now c') {t s : Nat} {r : Request}
    {p : Policy} :
    .arrived t s r p ∈ c'.past ↔
      (t = c.world.arrivals ∧ s = session ∧ r = request ∧
          p = c.world.throttle.config.policy) ∨
        .arrived t s r p ∈ c.past := by
  cases h <;> simp

theorem Passed.arrived_mem_iff {c c' : Course} {w : Waiter} {now : Instant}
    (h : Passed c w now c') {t s : Nat} {r : Request} {p : Policy} :
    .arrived t s r p ∈ c'.past ↔ .arrived t s r p ∈ c.past := by
  cases h <;> simp [releaseTrail]

/-! ## Orderly courses -/

/-- The held writers stand in the order of their tickets, which were all given out, and
their number is the one that the throttle keeps. -/
structure Orderly (c : Course) : Prop where
  sorted : c.world.throttle.waiting.Pairwise (·.ticket < ·.ticket)
  given : ∀ w ∈ c.world.throttle.waiting, w.ticket < c.world.arrivals
  counted : c.world.throttle.held = c.world.throttle.waiting.length

/-- A write that does not wait leaves the waiting writers alone; one that does is added to
them. -/
theorem Written.throttle {c c' : Course} {session : Nat} {request : Request} {now : Instant}
    (h : Written c session request now c') :
    (c'.world.throttle.held = c.world.throttle.held ∧
        c'.world.throttle.waiting = c.world.throttle.waiting) ∨
      (c'.world.throttle.held = c.world.throttle.held + 1 ∧
        c'.world.throttle.waiting =
          c.world.throttle.waiting ++ [c.newWaiter session request now]) := by
  cases h <;> simp

namespace Orderly

variable {c c' : Course}

theorem start (s : Settings) : Orderly (Course.start s) where
  sorted := .nil
  given := by simp [Course.start, Throttle.ofSettings]
  counted := rfl

theorem nodup_tickets (h : Orderly c) : (c.world.throttle.waiting.map Waiter.ticket).Nodup :=
  List.pairwise_map.mpr (h.sorted.imp Nat.ne_of_lt)

/-- Two held writers with the same ticket are the same. -/
theorem eq_of_ticket_eq (h : Orderly c) {v w : Waiter} (hv : v ∈ c.world.throttle.waiting)
    (hw : w ∈ c.world.throttle.waiting) (he : v.ticket = w.ticket) : v = w :=
  List.inj_on_of_nodup_map h.nodup_tickets hv hw he

/-- Taking held writers off by a ticket takes off that one writer. -/
theorem filter_eq_erase (h : Orderly c) {w : Waiter} (hw : w ∈ c.world.throttle.waiting) :
    c.world.throttle.waiting.filter (·.ticket != w.ticket) = c.world.throttle.waiting.erase w := by
  rw [h.nodup_tickets.of_map.erase_eq_filter]
  refine List.filter_congr fun v hv => ?_
  rw [Bool.eq_iff_iff, bne_iff_ne, bne_iff_ne]
  exact not_congr ⟨h.eq_of_ticket_eq hv hw, congrArg Waiter.ticket⟩

/-- Taking off a held writer takes off one. -/
theorem length_filter_ticket (h : Orderly c) {w : Waiter} (hw : w ∈ c.world.throttle.waiting) :
    (c.world.throttle.waiting.filter (·.ticket != w.ticket)).length + 1 =
      c.world.throttle.waiting.length := by
  rw [h.filter_eq_erase hw, List.length_erase_of_mem hw]
  exact Nat.sub_add_cancel (List.length_pos_of_mem hw)

theorem written {session : Nat} {request : Request} {now : Instant} (h : Orderly c)
    (hw : Written c session request now c') : Orderly c' := by
  have harrivals := hw.arrivals
  rcases hw.throttle with ⟨hheld, hwaiting⟩ | ⟨hheld, hwaiting⟩
  · refine ⟨hwaiting ▸ h.sorted, fun w hm => ?_, by rw [hheld, hwaiting, h.counted]⟩
    have := h.given w (hwaiting ▸ hm)
    omega
  · refine ⟨?_, fun w hm => ?_, ?_⟩
    · rw [hwaiting, List.pairwise_append]
      refine ⟨h.sorted, List.pairwise_singleton _ _, fun v hv w hm => ?_⟩
      rw [List.mem_singleton.mp hm]
      exact h.given v hv
    · rw [hwaiting, List.mem_append, List.mem_singleton] at hm
      rcases hm with hm | rfl
      · have := h.given w hm
        omega
      · rw [harrivals]
        exact Nat.lt_succ_self _
    · rw [hheld, hwaiting, h.counted, List.length_append, List.length_singleton]

theorem passed {w : Waiter} {now : Instant} (h : Orderly c)
    (hw : w ∈ c.world.throttle.waiting) (hp : Passed c w now c') : Orderly c' := by
  have harrivals := hp.arrivals
  have hsub : c'.world.throttle.waiting.Sublist c.world.throttle.waiting := by
    rw [hp.waiting]
    split
    · exact List.Sublist.refl _
    · exact List.filter_sublist
  refine ⟨h.sorted.sublist hsub, fun v hv => harrivals ▸ h.given v (hsub.subset hv), ?_⟩
  rw [hp.held, hp.waiting]
  split
  · exact h.counted
  · rw [h.filter_eq_erase hw, List.length_erase_of_mem hw, h.counted]

theorem move (h : Orderly c) (hm : Move c c') : Orderly c' := by
  cases hm with
  | write hw => exact h.written hw
  | pass hw hp => exact h.passed hw hp
  | surround _ _ _ _ | wakeup _ | call _ | answer _ => exact ⟨h.sorted, h.given, h.counted⟩

end Orderly

/-! ## Actions as moves -/

section Steps

variable {c : Course}

theorem stirs_write (session : Nat) (request : Request) (now : Instant) :
    Stirs c (c.write session request now) := by
  rcases written_write c session request now with hw | ⟨d, hw, hwaiting, heq⟩
  · exact .single (.write hw)
  · rw [heq]
    refine .tail (.single (.write hw)) (.pass ?_ (passed_pass d _ now))
    rw [hwaiting]
    exact List.mem_append_right _ (List.mem_singleton.mpr rfl)

/-- Held writers go through passes one after the other; those whose turn is still to come
are held until then. -/
theorem stirs_passAll (turn : Nat → Instant) (ws : List Waiter) (h : Orderly c)
    (hd : (ws.map Waiter.ticket).Nodup) (hm : ∀ w ∈ ws, w ∈ c.world.throttle.waiting) :
    Stirs c (c.passAll ws turn) := by
  induction ws generalizing c with
  | nil => exact .refl
  | cons w ws ih =>
    have hw := hm w List.mem_cons_self
    have hp := passed_pass c w (turn w.ticket)
    rw [List.map_cons, List.nodup_cons] at hd
    refine .head (.pass hw hp) (ih (h.passed hw hp) hd.2 fun v hv => ?_)
    exact hp.mem_waiting (hm v (List.mem_cons_of_mem _ hv))
      fun he => hd.1 (he ▸ List.mem_map_of_mem hv)

theorem stirs_wake (m : Moment) (h : Orderly c) : Stirs c (c.wake m) := by
  unfold wake
  split
  · exact .refl
  · rename_i hheld
    have hwaiting : c.world.throttle.waiting ≠ [] := by
      rw [h.counted, List.length_eq_zero_iff] at hheld
      exact hheld
    have hperm := perm_arrange m.first c.world.throttle.waiting
    refine .head (.wakeup hwaiting) (stirs_passAll _ _ (h.move (.wakeup hwaiting)) ?_ ?_)
    · exact (hperm.map _).nodup_iff.mpr h.nodup_tickets
    · exact fun w hw => hperm.mem_iff.mp hw

theorem stirs_expire (ticket : Nat) (now : Instant) : Stirs c (c.expire ticket now) := by
  unfold expire
  split
  · exact .refl
  · rename_i w hfind
    split
    · exact .single (.pass (List.mem_of_find?_eq_some hfind) (passed_pass c w now))
    · exact .refl

/-- A course after a request was made. -/
def issuing (c : Course) (payload : Payload) : Course :=
  { c with world := (c.world.issue payload).2 }

/-- A course after the next stage was told of an error and completed its writes. -/
def alarmed (c : Course) (session : Nat) (cause : Cause) : Course :=
  ({ c with world := (c.world.raise cause).2 } : Course).callNext
    (.exception session (c.world.raise cause).1)

theorem move_issuing (payload : Payload) : Move c (c.issuing payload) := .surround _ _ _ _

theorem moves_alarmed (session : Nat) (cause : Cause) : Moves c (c.alarmed session cause) := by
  have hraise : Move c { c with world := (c.world.raise cause).2 } := .surround _ _ _ _
  refine .head hraise (.head (.call ?_) (.single (.surround _ _ _ _)))
  exact fun _ _ => nofun

theorem Orderly.moves {d : Course} (h : Orderly c) (hm : Moves c d) : Orderly d := by
  induction hm with
  | refl => exact h
  | tail _ hstep ih => exact ih.move hstep

theorem Orderly.issuing (h : Orderly c) (payload : Payload) : Orderly (c.issuing payload) :=
  h.move (move_issuing payload)

theorem Orderly.alarmed (h : Orderly c) (session : Nat) (cause : Cause) :
    Orderly (c.alarmed session cause) := h.moves (moves_alarmed session cause)

/-- What one action does is a sequence of moves. -/
theorem moves_step (h : Orderly c) (a : Action) : Moves c (c.step a) := by
  cases a with
  | post entry => exact .single (.surround _ _ _ _)
  | configure change => exact .single (.surround _ _ _ _)
  | direct stage => exact .single (.surround _ _ _ _)
  | write session payload now =>
    exact .head (move_issuing payload) (stirs_write session _ now).moves
  | expire ticket now => exact (stirs_expire ticket now).moves
  | wake m => exact (stirs_wake m h).moves
  | sent session payload m =>
    have hwake : Moves (c.issuing payload) ((c.issuing payload).wake m) :=
      (stirs_wake m (h.issuing payload)).moves
    exact .head (move_issuing payload) (.tail (.tail hwake (.call (by simp))) (.answer _))
  | exception session cause m =>
    have hwake : Moves (c.alarmed session cause) ((c.alarmed session cause).wake m) :=
      (stirs_wake m (h.alarmed session cause)).moves
    exact (moves_alarmed session cause).trans (.tail hwake (.answer _))
  | closed session m => exact .tail (.tail (stirs_wake m h).moves (.call (by simp))) (.answer _)

end Steps

/-! ## Invariants -/

variable {P : Course → Prop}

theorem invariant_moves {c d : Course} (hmove : ∀ {c d}, Orderly c → P c → Move c d → P d)
    (h : Orderly c) (hc : P c) (hm : Moves c d) : P d := by
  induction hm with
  | refl => exact hc
  | tail hm hstep ih => exact hmove (h.moves hm) ih hstep

theorem Orderly.step {c : Course} (h : Orderly c) (a : Action) : Orderly (c.step a) :=
  h.moves (moves_step h a)

theorem Orderly.run {c : Course} (h : Orderly c) (actions : List Action) :
    Orderly (c.run actions) := by
  induction actions generalizing c with
  | nil => exact h
  | cons a as ih => exact ih (h.step a)

/-- A property that every move keeps holds after every run that it holds before. -/
theorem invariant_run {c : Course} (hmove : ∀ {c d}, Orderly c → P c → Move c d → P d)
    (h : Orderly c) (hc : P c) (actions : List Action) : P (c.run actions) := by
  induction actions generalizing c with
  | nil => exact hc
  | cons a as ih => exact ih (h.step a) (invariant_moves hmove h hc (moves_step h a))

theorem past_suffix_run {c : Course} (h : Orderly c) (actions : List Action) :
    c.past <:+ (c.run actions).past :=
  invariant_run (P := fun d => c.past <:+ d.past) (fun _ hd hm => hd.trans hm.past_suffix) h
    List.suffix_rfl actions

theorem orderly_run (s : Settings) (actions : List Action) :
    Orderly ((Course.start s).run actions) := (Orderly.start s).run actions

end Course

end Backpressure.Pipeline
