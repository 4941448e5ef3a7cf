import Backpressure.Proofs.Accounts
set_option autoImplicit false

/-!
# When a throttle warns

A write that is throttled under a policy that warns asks the gate, which all sessions
share; nothing else does. `Warnings` is what a course shows of this: the gate, the
warnings that it admitted, those that were written, and the writes that asked. Each action
moves it by one question or not at all, so the laws of the gate hold throughout a run: the
first write that asks is warned about, and between two warnings lies more than the
interval that was read for the second.

What the gate answers is not looked at by anything else. `Course.quiet` takes all traces of
it out of a course, and courses that are the same without them stay so.
-/

namespace Backpressure

/-- Counters without those of warnings. -/
def Counters.quiet (n : Counters) : Counters :=
  { n with warningsLogged := 0, warningsSuppressed := 0 }

/-- A throttle as if no write had asked for a warning. -/
def Throttle.quiet (t : Throttle) : Throttle := { t with gate := {}, counters := t.counters.quiet }

namespace Pipeline

/-! ## Warnings of the past -/

/-- A warning that the gate admitted. -/
structure Admission where
  ticket : Nat
  now : Instant
  /-- The interval that was read for the warning. -/
  interval : Duration
  deriving DecidableEq, Repr

/-- The warnings that the gate admitted, latest first. -/
def admissions : List Happening → List Admission
  | [] => []
  | .asked t now interval true :: earlier => ⟨t, now, interval⟩ :: admissions earlier
  | _ :: earlier => admissions earlier

/-- The writes that the trace has a warning of, latest first. -/
def warned : List Happening → List Nat
  | [] => []
  | .traced t (.warning _ _) :: earlier => t :: warned earlier
  | _ :: earlier => warned earlier

theorem mem_warned {t : Nat} {past : List Happening} :
    t ∈ warned past ↔ ∃ i m, .traced t (.warning i m) ∈ past := by
  induction past with
  | nil => simp [warned]
  | cons h earlier ih =>
    cases h with
    | traced u e =>
      cases e with
      | warning i m =>
        simp only [warned, List.mem_cons, ih]
        constructor
        · rintro (rfl | ⟨i', m', hm⟩)
          · exact ⟨i, m, .inl rfl⟩
          · exact ⟨i', m', .inr hm⟩
        · rintro ⟨i', m', heq | hm⟩
          · cases heq
            exact .inl rfl
          · exact .inr ⟨i', m', hm⟩
      | holding i | released i e => simp [warned, ih]
    | _ => simp [warned, ih]

theorem exists_of_mem_throttledUnder {t : Nat} {p : Policy → Bool} {past : List Happening}
    (h : t ∈ throttledUnder p past) : ∃ policy, p policy = true ∧ .throttled t policy ∈ past := by
  induction past with
  | nil => exact absurd h List.not_mem_nil
  | cons x earlier ih =>
    have hlater : t ∈ throttledUnder p earlier →
        ∃ policy, p policy = true ∧ .throttled t policy ∈ x :: earlier := by
      intro hm
      obtain ⟨policy, hp, hmem⟩ := ih hm
      exact ⟨policy, hp, List.mem_cons_of_mem _ hmem⟩
    cases x with
    | throttled u policy =>
      simp only [throttledUnder] at h
      split at h
      · rename_i hp
        rcases List.mem_cons.mp h with rfl | hm
        · exact ⟨policy, hp, List.mem_cons_self⟩
        · exact hlater hm
      · exact hlater h
    | _ => exact hlater h

/-- What a course shows of its warnings. -/
structure Warnings where
  gate : WarnGate
  /-- The warnings that the gate admitted, latest first. -/
  admitted : List Admission
  /-- The writes that the trace has a warning of, latest first. -/
  written : List Nat
  /-- The writes that were throttled under a policy that warns, latest first. -/
  due : List Nat
  deriving DecidableEq, Repr

namespace Warnings

/-- One more write asks for a warning. -/
def ask (v : Warnings) (ticket : Nat) (now : Instant) (interval : Duration) : Warnings :=
  let admitted := v.gate.admits now interval
  { gate := if admitted then ⟨some now⟩ else v.gate
    admitted := if admitted then ⟨ticket, now, interval⟩ :: v.admitted else v.admitted
    written := if admitted then ticket :: v.written else v.written
    due := ticket :: v.due }

/-- The gate remembers the last warning, more than an interval lies between warnings, and
they were written for writes that asked, the first one among them. -/
structure Orderly (v : Warnings) : Prop where
  last : v.gate.last = v.admitted.head?.map Admission.now
  spaced : v.admitted.Pairwise fun later earlier =>
    earlier.now + later.interval.nanos < later.now
  written : v.written = v.admitted.map Admission.ticket
  first : v.due.getLast? = v.written.getLast?
  owed : v.written.Sublist v.due

namespace Orderly

variable {v : Warnings}

theorem empty : Orderly ⟨{}, [], [], []⟩ := ⟨rfl, .nil, rfl, rfl, .slnil⟩

/-- A warning that the gate admits comes more than the interval after every other one. -/
theorem spaced_of_admits (h : Orderly v) {now : Instant} {interval : Duration}
    (ha : v.gate.admits now interval = true) :
    ∀ a ∈ v.admitted, a.now + interval.nanos < now := by
  obtain ⟨hlast, hspaced, -, -, -⟩ := h
  unfold WarnGate.admits at ha
  cases hv : v.admitted with
  | nil => simp
  | cons latest others =>
    rw [hv] at hlast hspaced
    rw [show v.gate.last = some latest.now from hlast] at ha
    have hafter : latest.now + interval.nanos < now :=
      Nat.add_lt_of_lt_sub' (of_decide_eq_true ha)
    intro a hmem
    rcases List.mem_cons.mp hmem with rfl | hother
    · exact hafter
    · have hbefore : a.now + latest.interval.nanos < latest.now :=
        List.rel_of_pairwise_cons hspaced hother
      have hlt : a.now < latest.now := Nat.lt_of_le_of_lt (Nat.le_add_right _ _) hbefore
      calc a.now + interval.nanos < latest.now + interval.nanos := Nat.add_lt_add_right hlt _
        _ < now := hafter

/-- The gate is closed at some instant only if a warning was admitted. -/
theorem admitted_ne_nil (h : Orderly v) {now : Instant} {interval : Duration}
    (ha : v.gate.admits now interval = false) : v.admitted ≠ [] := by
  intro hnil
  have hlast : v.gate.last = none := by
    rw [h.last, hnil]
    rfl
  rw [WarnGate.admits, hlast] at ha
  cases ha

theorem ask (h : Orderly v) (ticket : Nat) (now : Instant) (interval : Duration) :
    Orderly (v.ask ticket now interval) := by
  unfold Warnings.ask
  cases ha : v.gate.admits now interval with
  | true =>
    refine ⟨rfl, ?_, ?_, ?_, ?_⟩
    · exact List.pairwise_cons.mpr ⟨h.spaced_of_admits ha, h.spaced⟩
    · exact congrArg (ticket :: ·) h.written
    · change (ticket :: v.due).getLast? = (ticket :: v.written).getLast?
      rw [List.getLast?_cons, List.getLast?_cons, h.first]
    · exact h.owed.cons_cons ticket
  | false =>
    refine ⟨h.last, h.spaced, h.written, ?_, h.owed.cons ticket⟩
    have hne : v.written ≠ [] := by
      rw [h.written]
      exact mt List.map_eq_nil_iff.mp (h.admitted_ne_nil ha)
    change (ticket :: v.due).getLast? = v.written.getLast?
    rw [List.getLast?_cons, h.first, List.getLast?_eq_some_getLast hne]
    rfl

end Orderly

end Warnings

namespace Course

variable {c c' : Course} {w : Waiter} {session : Nat} {request : Request} {now : Instant}

/-! ## Warnings of a run -/

/-- What a course shows of its warnings. -/
def warnings (c : Course) : Warnings where
  gate := c.world.throttle.gate
  admitted := admissions c.past
  written := warned c.past
  due := throttledUnder Policy.warns c.past

/-- A write on a session would be throttled under a policy that warns. -/
def Warns (c : Course) (session : Nat) : Prop :=
  c.world.throttle.config.policy.warns = true ∧ c.world.verdict session = .flooded

instance (c : Course) (session : Nat) : Decidable (c.Warns session) :=
  inferInstanceAs (Decidable (_ ∧ _))

/-- The instant at which an action asks for a warning, if it does. -/
def asks (c : Course) : Action → Option Instant
  | .write session _ now => if c.Warns session then some now else none
  | _ => none

section Trails

variable (t : Nat) (past : List Happening)

@[simp] theorem admissions_warnTrail :
    admissions (c.warnTrail t session now ++ past) =
      if c.world.throttle.gate.admits now c.world.throttle.config.logInterval then
        ⟨t, now, c.world.throttle.config.logInterval⟩ :: admissions past
      else admissions past := by
  unfold warnTrail WarnGate.ask
  split <;> simp [admissions, *]

@[simp] theorem warned_warnTrail :
    warned (c.warnTrail t session now ++ past) =
      if c.world.throttle.gate.admits now c.world.throttle.config.logInterval then
        t :: warned past
      else warned past := by
  unfold warnTrail WarnGate.ask
  split <;> simp [warned, *]

end Trails

/-- A new write asks for a warning if it is throttled under a policy that warns, and leaves
the warnings alone otherwise. -/
theorem Written.warnings (h : Written c session request now c') :
    c'.warnings =
      if c.Warns session then
        c.warnings.ask c.world.arrivals now c.world.throttle.config.logInterval
      else c.warnings := by
  have hspares : ∀ {p}, c.world.throttle.config.policy = p → p.warns = false →
      ¬ c.Warns session := by
    rintro p rfl hp ⟨hwarns, -⟩
    rw [hp] at hwarns
    cases hwarns
  cases h with
  | untouched hp | rejected hp _ | waits hp _ =>
    rw [if_neg (hspares hp rfl)]
    rfl
  | ready _ hv | lost _ hv =>
    have hnot : ¬ c.Warns session := by
      rintro ⟨-, hflooded⟩
      rw [hflooded] at hv
      cases hv
    rw [if_neg hnot]
    rfl
  | passes hp hv | warnsAndWaits hp hv =>
    rw [if_pos ⟨congrArg Policy.warns hp, hv⟩]
    simp [Course.warnings, Warnings.ask, WarnGate.ask_fst, admissions, warned,
      Pipeline.throttledUnder, Policy.warns]
    exact ⟨rfl, rfl, rfl⟩

theorem Passed.warnings (hp : Passed c w now c') : c'.warnings = c.warnings := by
  cases hp <;> rfl

/-- An action asks the gate at most once, and leaves the warnings alone otherwise. -/
theorem warnings_step (a : Action) :
    (c.step a).warnings =
      match c.asks a with
      | some now => c.warnings.ask c.world.arrivals now c.world.throttle.config.logInterval
      | none => c.warnings := by
  have hwake : ∀ (d : Course) m, (d.wake m).warnings = d.warnings := by
    intro d m
    exact reading_wake (f := Course.warnings) Passed.warnings (fun _ => rfl) m
  cases a with
  | post _ | configure _ | direct _ => rfl
  | expire ticket now => exact reading_expire (f := Course.warnings) Passed.warnings ticket now
  | wake m | closed session m => exact hwake c m
  | sent session payload m => exact hwake (c.issuing payload) m
  | exception session cause m => exact hwake (c.alarmed session cause) m
  | write session payload now =>
    have hwrite : (c.step (.write session payload now)).warnings =
        if c.Warns session then
          c.warnings.ask c.world.arrivals now c.world.throttle.config.logInterval
        else c.warnings :=
      reading_write (c := c.issuing payload) (f := Course.warnings) Written.warnings
        Passed.warnings
    rw [hwrite, asks]
    split <;> rfl

/-- Throughout a run the warnings are in order. -/
theorem orderly_warnings_run (s : Settings) (actions : List Action) :
    ((Course.start s).run actions).warnings.Orderly := by
  have hrun : ∀ c : Course, c.warnings.Orderly → (c.run actions).warnings.Orderly := by
    induction actions with
    | nil => exact fun _ h => h
    | cons a as ih =>
      intro c h
      refine ih (c.step a) ?_
      rw [warnings_step]
      split
      · exact h.ask _ _ _
      · exact h
  exact hrun _ .empty

end Course

/-! ## Courses without warnings -/

/-- A happening belongs to a question to the gate. -/
def Happening.isWarning : Happening → Bool
  | asked .. | recorded (.warning _) | traced _ (.warning _ _) => true
  | _ => false

namespace Course

/-- A course as if no write had asked for a warning. -/
def quiet (c : Course) : Course where
  world := { c.world with throttle := c.world.throttle.quiet }
  past := c.past.filter (!·.isWarning)

variable {c d : Course} {w : Waiter} {ticket session : Nat} {request : Request} {now : Instant}

section Quiet

variable (c w ticket session request now)

@[simp] theorem quiet_forward :
    (c.forward ticket session request).quiet = c.quiet.forward ticket session request := rfl

@[simp] theorem quiet_reject :
    (c.reject ticket session request).quiet = c.quiet.reject ticket session request := rfl

@[simp] theorem quiet_pass : (c.pass w now).quiet = c.quiet.pass w now := by
  have hlook : c.quiet.world.look w.session = c.world.look w.session := rfl
  unfold pass
  dsimp only
  rw [hlook]
  split
  case h_1 => rfl
  case h_2 e hp => cases e <;> rfl
  case h_3 => rfl

@[simp] theorem quiet_hold :
    (c.hold ticket session request now).quiet = c.quiet.hold ticket session request now :=
  quiet_pass _ _ _

/-- Asking for a warning leaves nothing behind but the warning. -/
@[simp] theorem quiet_warn : (c.warn ticket session now).quiet = c.quiet := by
  unfold warn
  dsimp only
  generalize c.world.throttle.gate.ask now c.world.throttle.config.logInterval = answer
  obtain ⟨gate, admitted⟩ := answer
  cases admitted <;> rfl

@[simp] theorem quiet_passAll (ws : List Waiter) (turn : Nat → Instant) :
    (c.passAll ws turn).quiet = c.quiet.passAll ws turn := by
  induction ws generalizing c with
  | nil => rfl
  | cons w ws ih => rw [passAll_cons, passAll_cons, ih, quiet_pass]

@[simp] theorem quiet_wake (m : Moment) : (c.wake m).quiet = c.quiet.wake m := by
  have hheld : c.quiet.world.throttle.held = c.world.throttle.held := rfl
  unfold wake
  rw [hheld]
  split
  · rfl
  · exact quiet_passAll _ _ _

@[simp] theorem quiet_expire : (c.expire ticket now).quiet = c.quiet.expire ticket now := by
  have hwaiting : c.quiet.world.throttle.waiting = c.world.throttle.waiting := rfl
  unfold expire
  rw [hwaiting]
  split
  · rfl
  · split
    · exact quiet_pass _ _ _
    · rfl

/-- No action but a write does anything with the gate. -/
theorem quiet_step_of_ne_write {a : Action} (ha : ∀ s p n, a ≠ .write s p n) :
    (c.step a).quiet = c.quiet.step a := by
  cases a with
  | write session payload now => exact absurd rfl (ha session payload now)
  | post _ | configure _ | direct _ => rfl
  | expire ticket now => exact quiet_expire c ticket now
  | wake m => exact quiet_wake c m
  | sent session payload m =>
    let call := Call.sent session (c.world.issue payload).1
    exact congrArg (fun q : Course => (q.callNext call).answer (c.world.stage.outcome call))
      (quiet_wake (c.issuing payload) m)
  | exception session cause m =>
    let call := Call.exception session (c.world.raise cause).1
    exact congrArg (fun q : Course => q.answer (c.world.stage.outcome call))
      (quiet_wake (c.alarmed session cause) m)
  | closed session m =>
    let call := Call.closed session
    exact congrArg (fun q : Course => (q.callNext call).answer (c.world.stage.outcome call))
      (quiet_wake c m)

end Quiet

/-! Two courses that are the same without warnings stay so, whatever the gate says. -/

section Alike

variable (h : c.quiet = d.quiet)
include h

theorem look_eq_of_quiet : c.world.look session = d.world.look session := by
  calc c.world.look session = c.quiet.world.look session := rfl
    _ = d.quiet.world.look session := by rw [h]
    _ = d.world.look session := rfl

theorem quiet_act_congr (policy : Policy) (hon : policy ≠ .off) :
    (c.act policy hon ticket session request now).quiet =
      (d.act policy hon ticket session request now).quiet := by
  have hcounted : ((c.note (.throttled ticket policy)).record .throttled).quiet =
      ((d.note (.throttled ticket policy)).record .throttled).quiet :=
    congrArg (fun q => (q.note (.throttled ticket policy)).record .throttled) h
  -- the two gates may answer differently here, which `quiet_warn` does not see
  cases policy with
  | off => exact absurd rfl hon
  | log | block | logAndBlock | exception =>
    simp only [act, quiet_forward, quiet_warn, quiet_hold, quiet_reject, hcounted]

theorem quiet_consider_congr (policy : Policy) (hon : policy ≠ .off) :
    (c.consider policy hon ticket session request now).quiet =
      (d.consider policy hon ticket session request now).quiet := by
  have hseen : ∀ look, (c.note (.looked ticket session look)).quiet =
      (d.note (.looked ticket session look)).quiet :=
    fun look => congrArg (·.note (.looked ticket session look)) h
  unfold consider
  rw [look_eq_of_quiet h]
  dsimp only
  split
  · rw [quiet_forward, quiet_forward, hseen]
  · exact quiet_act_congr (hseen _) policy hon
  · exact congrArg (·.finish ticket .lost) (hseen _)

theorem quiet_write_congr :
    (c.write session request now).quiet = (d.write session request now).quiet := by
  have hpolicy : c.world.throttle.config.policy = d.world.throttle.config.policy :=
    congrArg (·.world.throttle.config.policy) h
  have harrivals : c.world.arrivals = d.world.arrivals := congrArg (·.world.arrivals) h
  have harrived : (c.arrive session request).quiet = (d.arrive session request).quiet :=
    congrArg (·.arrive session request) h
  unfold write
  rw [hpolicy, harrivals]
  dsimp only
  split
  · rw [quiet_forward, quiet_forward, harrived]
  · exact quiet_consider_congr harrived _ _

theorem quiet_step_congr (a : Action) : (c.step a).quiet = (d.step a).quiet := by
  by_cases ha : ∀ s p n, a ≠ .write s p n
  · rw [quiet_step_of_ne_write c ha, quiet_step_of_ne_write d ha, h]
  · push Not at ha
    obtain ⟨session, payload, now, rfl⟩ := ha
    have hissued : (c.issuing payload).quiet = (d.issuing payload).quiet :=
      congrArg (·.issuing payload) h
    have hnumbering : c.world.numbering = d.world.numbering := congrArg (·.world.numbering) h
    have hrequest : (c.world.issue payload).1 = (d.world.issue payload).1 :=
      congrArg (fun n => (n.issue payload).1) hnumbering
    calc (c.step (.write session payload now)).quiet
        = ((d.issuing payload).write session (c.world.issue payload).1 now).quiet :=
          quiet_write_congr hissued
      _ = (d.step (.write session payload now)).quiet := by rw [hrequest]; rfl

theorem quiet_run_congr (actions : List Action) : (c.run actions).quiet = (d.run actions).quiet := by
  induction actions generalizing c d with
  | nil => exact h
  | cons a as ih => exact ih (quiet_step_congr h a)

end Alike

/-! ## Runs -/

theorem endings_quiet (c : Course) : c.quiet.endings = c.endings := by
  unfold endings happened quiet
  rw [← List.filter_reverse, List.filterMap_filter]
  refine List.filterMap_congr fun x _ => ?_
  cases x <;> simp [Happening.isWarning, Happening.ending?]

theorem calls_quiet (c : Course) : c.quiet.calls = c.calls := by
  unfold calls happened quiet
  rw [← List.filter_reverse, List.filterMap_filter]
  refine List.filterMap_congr fun x _ => ?_
  cases x <;> simp [Happening.isWarning, Happening.call?]

theorem mem_events {e : Event} : (ticket, e) ∈ c.events ↔ .traced ticket e ∈ c.past := by
  rw [events, List.mem_filterMap]
  constructor
  · rintro ⟨h, hh, heq⟩
    cases h with
    | traced t e =>
      cases heq
      exact List.mem_reverse.mp hh
    | _ => cases heq
  · intro hm
    exact ⟨_, List.mem_reverse.mpr hm, rfl⟩

/-- A course with another gate. -/
def withGate (c : Course) (g : WarnGate) : Course :=
  c.withThrottle { c.world.throttle with gate := g }

/-- In every course of a run the trace warns about writes that were throttled under a policy
that warns, and about the first of them. The warnings are those that the gate admitted, and
each came more than the interval that was read for it after every earlier one. A write that
is throttled under such a policy asks the gate, and no other action changes it. With any
other gate, so with any other answer to a write, all writes would reach the next stage, wait
and end in the same way. -/
theorem warnings_rate_limited (s : Settings) (actions : List Action) :
    let c := (Course.start s).run actions
    let policy := c.world.throttle.config.policy
    (∀ t i m, (t, .warning i m) ∈ c.events →
        ∃ x r p, (p = .log ∨ p = .logAndBlock) ∧ .arrived t x r p ∈ c.past ∧
          .throttled t p ∈ c.past) ∧
      (throttledUnder Policy.warns c.past).getLast? = (warned c.past).getLast? ∧
      (∀ t, t ∈ warned c.past ↔ ∃ i m, (t, .warning i m) ∈ c.events) ∧
      warned c.past = (admissions c.past).map Admission.ticket ∧
      (admissions c.past).Pairwise (fun later earlier =>
        earlier.now + later.interval.nanos < later.now) ∧
      (∀ x payload now, (policy = .log ∨ policy = .logAndBlock) → c.world.verdict x = .flooded →
        (c.step (.write x payload now)).warnings =
          c.warnings.ask c.world.arrivals now c.world.throttle.config.logInterval) ∧
      (∀ a, (∀ x payload now, a = .write x payload now →
          policy = .off ∨ policy = .block ∨ policy = .exception ∨ c.world.verdict x ≠ .flooded) →
        (c.step a).warnings = c.warnings) ∧
      ∀ g after,
        let d := (c.withGate g).run after
        let e := c.run after
        d.endings = e.endings ∧ d.calls = e.calls ∧
          d.world.throttle.waiting = e.world.throttle.waiting := by
  intro c policy
  have horderly : c.warnings.Orderly := orderly_warnings_run s actions
  have hdistinct : Distinct c :=
    invariant_run (P := Distinct) Distinct.move (.start s) (.start s) actions
  have hwarned : ∀ t, t ∈ warned c.past ↔ ∃ i m, (t, .warning i m) ∈ c.events := by
    intro t
    simp only [mem_warned, mem_events]
  have hwarns : ∀ p : Policy, p.warns = true ↔ p = .log ∨ p = .logAndBlock := by
    intro p
    cases p <;> simp [Policy.warns]
  refine ⟨?_, horderly.first, hwarned, horderly.written, horderly.spaced, ?_, ?_, ?_⟩
  · intro t i m hm
    have hdue : t ∈ throttledUnder Policy.warns c.past :=
      horderly.owed.subset ((hwarned t).mpr ⟨i, m, hm⟩)
    obtain ⟨p, hp, hthrottled⟩ := exists_of_mem_throttledUnder hdue
    obtain ⟨x, r, harrived⟩ := hdistinct.entry t p hthrottled
    exact ⟨x, r, p, (hwarns p).mp hp, harrived, hthrottled⟩
  · intro x payload now hp hv
    have hasks : c.asks (.write x payload now) = some now := if_pos ⟨(hwarns _).mpr hp, hv⟩
    rw [warnings_step, hasks]
  · intro a ha
    have hasks : c.asks a = none := by
      cases a with
      | write x payload now =>
        refine if_neg fun hw => ?_
        have hpolicy := (hwarns policy).mp hw.1
        rcases ha x payload now rfl with hp | hp | hp | hv
        · simp [hp] at hpolicy
        · simp [hp] at hpolicy
        · simp [hp] at hpolicy
        · exact hv hw.2
      | _ => rfl
    rw [warnings_step, hasks]
  · intro g after
    have hquiet : ((c.withGate g).run after).quiet = (c.run after).quiet :=
      quiet_run_congr (c := c.withGate g) (d := c) rfl after
    refine ⟨?_, ?_, congrArg (·.world.throttle.waiting) hquiet⟩
    · rw [← endings_quiet, hquiet, endings_quiet]
    · rw [← calls_quiet, hquiet, calls_quiet]

/-- Sessions share the gate: of three writes the second comes just at the interval after the
first and is not warned about, the third one comes later. -/
example :
    warned ((Course.start { limits := ⟨1, 0, 0, 0⟩, logInterval := .ofNanos 10 }).run
      [.post .openService, .post (.openSession 0), .post (.openSession 0),
       .post (.schedule 0 10), .post (.schedule 1 10), .write 0 [1] 5, .write 1 [2] 15,
       .write 0 [3] 16]).past = [2, 0] := by
  decide

end Course

end Pipeline

end Backpressure
