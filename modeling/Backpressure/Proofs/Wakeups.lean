import Backpressure.Proofs.Moves
set_option autoImplicit false

/-!
# Who is released by a wake

A wake reaches every held writer, and each one looks at its own session, and at the clock
in its own turn. The writers that stay held are those that a pass at the time of their turn
leaves held; the order in which they go through their passes makes no difference, since no
pass changes what another one sees. Without a bound on its wait a writer is let go by a wake alone, and
only if its session is ready then or cannot be read.
-/

namespace Backpressure.Pipeline

/-- The world in which an action wakes the held writers, if it does. An error wakes them
after the next stage's hook has run, however that call comes out. -/
def World.atWake (w : World) : Action → Option World
  | .wake _ | .sent .. | .closed .. => some w
  | .exception .. => some w.drain
  | .post _ | .configure _ | .direct _ | .write .. | .expire .. => none

/-- An action wakes a writer at a moment at which its own session is ready or cannot be
read. -/
def World.Frees (w : World) (a : Action) (x : Waiter) : Prop :=
  ∃ v, w.atWake a = some v ∧ (v.verdict x.session = .ready ∨ v.verdict x.session = .unreadable)

/-- The time that the held writer with a ticket reads in an action, if it looks at the clock. -/
def Action.turn? (ticket : Nat) : Action → Option Instant
  | .expire t now => if t = ticket then some now else none
  | .wake m | .sent _ _ m | .exception _ _ m | .closed _ m => some (m.turn ticket)
  | .post _ | .configure _ | .direct _ | .write .. => none

/-- The deadline of a writer has come by the time that it reads in an action. -/
def Action.Overdue (a : Action) (x : Waiter) : Prop :=
  ∃ d now, x.deadline = some d ∧ a.turn? x.ticket = some now ∧ d ≤ now

theorem Action.not_overdue_of_deadline_eq_none {a : Action} {x : Waiter}
    (h : x.deadline = none) : ¬ a.Overdue x := by
  rintro ⟨d, now, hd, -, -⟩
  rw [h] at hd
  cases hd

namespace Course

variable {c : Course}

/-! ## Passes in a row -/

/-- Of the writers that go through a pass the ones remain that a pass leaves held. -/
theorem waiting_passAll (turn : Nat → Instant) (ws : List Waiter) (h : Orderly c)
    (hd : (ws.map Waiter.ticket).Nodup) (hm : ∀ w ∈ ws, w ∈ c.world.throttle.waiting) :
    (c.passAll ws turn).world.throttle.waiting =
      c.world.throttle.waiting.filter fun x =>
        decide (x ∈ ws → c.world.keeps x (turn x.ticket)) := by
  induction ws generalizing c with
  | nil => simp [passAll]
  | cons w ws ih =>
    have hw := hm w List.mem_cons_self
    have hp := passed_pass c w (turn w.ticket)
    rw [List.map_cons, List.nodup_cons] at hd
    have hrest : ∀ v ∈ ws, v ∈ (c.pass w (turn w.ticket)).world.throttle.waiting := fun v hv =>
      hp.mem_waiting (hm v (List.mem_cons_of_mem _ hv))
        fun he => hd.1 (he ▸ List.mem_map_of_mem hv)
    rw [passAll_cons, ih (h.passed hw hp) hd.2 hrest, hp.waiting]
    simp only [World.keeps_eq_of_ground hp.ground]
    by_cases hk : c.world.keeps w (turn w.ticket) = true
    · rw [if_pos hk]
      refine List.filter_congr fun x _ => ?_
      rw [decide_eq_decide, List.mem_cons]
      exact ⟨fun hi hx => hx.elim (fun he => he ▸ hk) hi, fun hi hx => hi (.inr hx)⟩
    · rw [if_neg hk, List.filter_filter]
      refine List.filter_congr fun x hx => ?_
      rw [Bool.eq_iff_iff, Bool.and_eq_true, decide_eq_true_iff, decide_eq_true_iff,
        bne_iff_ne, List.mem_cons]
      constructor
      · rintro ⟨hi, hne⟩ (rfl | hmem)
        · exact absurd rfl hne
        · exact hi hmem
      · refine fun hi => ⟨fun hmem => hi (.inr hmem), fun he => hk ?_⟩
        have hxw := h.eq_of_ticket_eq hx hw he
        exact hxw ▸ hi (.inl hxw)

/-- The writers that remain after all of them went through a pass do not depend on the
order. -/
theorem waiting_passAll_perm (turn : Nat → Instant) {ws : List Waiter} (h : Orderly c)
    (hp : ws.Perm c.world.throttle.waiting) :
    (c.passAll ws turn).world.throttle.waiting =
      c.world.throttle.waiting.filter fun x => c.world.keeps x (turn x.ticket) := by
  have hd : (ws.map Waiter.ticket).Nodup := (hp.map _).nodup_iff.mpr h.nodup_tickets
  rw [waiting_passAll turn ws h hd fun w hw => hp.mem_iff.mp hw]
  refine List.filter_congr fun x hx => ?_
  rw [Bool.eq_iff_iff, decide_eq_true_iff]
  exact ⟨fun hi => hi (hp.mem_iff.mpr hx), fun hk _ => hk⟩

/-- A wake releases the writers that a pass does not leave held, in whatever order they
go through it. -/
theorem waiting_wake (h : Orderly c) (m : Moment) :
    (c.wake m).world.throttle.waiting =
      c.world.throttle.waiting.filter fun x => c.world.keeps x (m.turn x.ticket) := by
  unfold wake
  split
  · rename_i hheld
    rw [h.counted, List.length_eq_zero_iff] at hheld
    rw [hheld, List.filter_nil]
  · have hcounted : Orderly (c.record .wakeup) := ⟨h.sorted, h.given, h.counted⟩
    exact waiting_passAll_perm m.turn hcounted (perm_arrange m.first _)

/-! ## Steps with and without a wake -/

/-- After an action that wakes, the writers are held that a pass leaves held in the world
of the wake. -/
theorem waiting_step_of_wake (h : Orderly c) {a : Action} {w : World}
    (ha : c.world.atWake a = some w) :
    ∃ turn : Nat → Instant, (∀ ticket, a.turn? ticket = some (turn ticket)) ∧
      (c.step a).world.throttle.waiting =
        c.world.throttle.waiting.filter fun x => w.keeps x (turn x.ticket) := by
  cases a with
  | post _ | configure _ | direct _ | write _ _ _ | expire _ _ => cases ha
  | wake m =>
    cases ha
    exact ⟨m.turn, fun _ => rfl, waiting_wake h m⟩
  | sent session payload m =>
    cases ha
    exact ⟨m.turn, fun _ => rfl, waiting_wake (h.issuing payload) m⟩
  | closed session m =>
    cases ha
    exact ⟨m.turn, fun _ => rfl, waiting_wake h m⟩
  | exception session cause m =>
    cases ha
    exact ⟨m.turn, fun _ => rfl, waiting_wake (h.alarmed session cause) m⟩

/-- A write leaves every other writer held. -/
theorem mem_waiting_write (h : Orderly c) {session : Nat} {request : Request} {now : Instant}
    {x : Waiter} (hx : x ∈ c.world.throttle.waiting) :
    x ∈ (c.write session request now).world.throttle.waiting := by
  rcases written_write c session request now with hw | ⟨d, hw, hwaiting, heq⟩
  · rcases hw.throttle with ⟨-, hwaiting⟩ | ⟨-, hwaiting⟩
    · exact hwaiting ▸ hx
    · exact hwaiting ▸ List.mem_append_left _ hx
  · rw [heq]
    refine (passed_pass d _ now).mem_waiting (hwaiting ▸ List.mem_append_left _ hx) ?_
    exact Nat.ne_of_lt (h.given x hx)

/-- An action that does not wake leaves every writer held whose deadline has not come. -/
theorem mem_waiting_step_of_no_wake (h : Orderly c) {a : Action}
    (ha : c.world.atWake a = none) {x : Waiter} (hx : x ∈ c.world.throttle.waiting)
    (hd : ¬ a.Overdue x) : x ∈ (c.step a).world.throttle.waiting := by
  cases a with
  | wake _ | sent _ _ _ | closed _ _ | exception _ _ _ => cases ha
  | post _ | configure _ | direct _ => exact hx
  | write session payload now =>
    exact mem_waiting_write (h.issuing payload) hx
  | expire ticket now =>
    change x ∈ (c.expire ticket now).world.throttle.waiting
    unfold expire
    split
    · exact hx
    · rename_i w hfind
      split
      · rename_i hdue
        refine (passed_pass c w now).mem_waiting hx fun he => ?_
        have hxw := h.eq_of_ticket_eq hx (List.mem_of_find?_eq_some hfind) he
        have hfound := List.find?_some hfind
        have ht : w.ticket = ticket := beq_iff_eq.mp hfound
        rw [← hxw, Option.any_eq_true] at hdue
        obtain ⟨d, hsome, hle⟩ := hdue
        have hturn : (Action.expire ticket now).turn? x.ticket = some now :=
          if_pos (ht.symm.trans he.symm)
        exact hd ⟨d, now, hsome, hturn, of_decide_eq_true hle⟩
      · exact hx

/-! ## Runs -/

/-- A held writer is let go by an action that wakes it while its session is ready or
cannot be read. -/
theorem released_of_frees (h : Orderly c) {a : Action} {x : Waiter}
    (hx : x ∈ c.world.throttle.waiting) (hf : c.world.Frees a x) :
    x.ticket ∉ (c.step a).world.throttle.waiting.map Waiter.ticket := by
  obtain ⟨w, hw, hv⟩ := hf
  obtain ⟨turn, -, hwaiting⟩ := waiting_step_of_wake h hw
  intro hm
  obtain ⟨y, hy, he⟩ := List.mem_map.mp hm
  rw [hwaiting, List.mem_filter] at hy
  have hyx : y = x := h.eq_of_ticket_eq hy.1 hx he
  have hflooded : w.verdict x.session = .flooded := (World.keeps_iff.mp (hyx ▸ hy.2)).1
  rw [hflooded] at hv
  rcases hv with hv | hv <;> cases hv

/-- Any other writer is held on unless its deadline has come. -/
theorem held_of_not_frees (h : Orderly c) {a : Action} {x : Waiter}
    (hx : x ∈ c.world.throttle.waiting) (hf : ¬ c.world.Frees a x) (hd : ¬ a.Overdue x) :
    x ∈ (c.step a).world.throttle.waiting := by
  cases ha : c.world.atWake a with
  | none => exact mem_waiting_step_of_no_wake h ha hx hd
  | some w =>
    obtain ⟨turn, hturn, hwaiting⟩ := waiting_step_of_wake h ha
    rw [hwaiting, List.mem_filter, World.keeps_iff]
    refine ⟨hx, ?_, fun d hdeadline => ?_⟩
    · cases hv : w.verdict x.session with
      | flooded => rfl
      | ready => exact absurd ⟨w, ha, .inl hv⟩ hf
      | unreadable => exact absurd ⟨w, ha, .inr hv⟩ hf
    · exact Nat.lt_of_not_le fun hle => hd ⟨d, _, hdeadline, hturn x.ticket, hle⟩

/-- In every course of a run, whatever comes next, a held writer without a deadline is let
go exactly if the action wakes it and its own session is ready then, or cannot be read.
With or without one, such a writer is let go, and every other writer is held on as it was
unless its deadline has come. -/
theorem released_iff_frees (s : Settings) (actions : List Action) (a : Action) :
    let before := (Course.start s).run actions
    let after := before.step a
    ∀ x ∈ before.world.throttle.waiting,
      (x.deadline = none →
        (x.ticket ∉ after.world.throttle.waiting.map Waiter.ticket ↔
          before.world.Frees a x)) ∧
      (before.world.Frees a x →
        x.ticket ∉ after.world.throttle.waiting.map Waiter.ticket) ∧
      (¬ before.world.Frees a x → ¬ a.Overdue x → x ∈ after.world.throttle.waiting) := by
  intro before after x hx
  have h : Orderly before := orderly_run s actions
  refine ⟨fun hd => ⟨fun hn => ?_, released_of_frees h hx⟩, released_of_frees h hx,
    held_of_not_frees h hx⟩
  by_contra hf
  have hheld : x ∈ after.world.throttle.waiting :=
    held_of_not_frees h hx hf (Action.not_overdue_of_deadline_eq_none hd)
  exact hn (List.mem_map_of_mem hheld)

/-- Two writers are held on sessions of their own, and the next stage's hook for errors is
to complete what the first one waits for and then to crash. -/
def holdTwo : List Action :=
  [.post .openService, .post (.openSession 0), .post (.openSession 0),
   .post (.schedule 0 10), .post (.schedule 1 10), .write 0 [7] 5, .write 1 [8] 6,
   .direct { exception := .plain (.crash "down"), drains := [⟨0, 10⟩] }]

/-- The course in which they are held. -/
def heldTwo : Course := (Course.start { policy := .block, limits := ⟨1, 0, 0, 0⟩ }).run holdTwo

/-- An error lets the first of the two writers go and not the second. -/
theorem released_iff_frees_heldTwo :
    let a : Action := .exception 1 (.other "reset") { now := 9 }
    let x : Waiter := ⟨0, 0, ⟨1, [7]⟩, 5, none⟩
    let y : Waiter := ⟨1, 1, ⟨2, [8]⟩, 6, none⟩
    heldTwo.world.throttle.waiting = [x, y] ∧
      x.ticket ∉ (heldTwo.step a).world.throttle.waiting.map Waiter.ticket ∧
      y ∈ (heldTwo.step a).world.throttle.waiting := by
  intro a x y
  have hwaiting : heldTwo.world.throttle.waiting = [x, y] := by decide
  have hx : heldTwo.world.Frees a x := ⟨heldTwo.world.drain, rfl, .inl (by decide)⟩
  have hy : ¬ heldTwo.world.Frees a y := by
    rintro ⟨w, hw, hv⟩
    cases hw
    revert hv
    decide
  have hreleased := released_iff_frees { policy := .block, limits := ⟨1, 0, 0, 0⟩ } holdTwo a
  exact ⟨hwaiting, ((hreleased x (hwaiting ▸ List.mem_cons_self)).1 rfl).mpr hx,
    (hreleased y (hwaiting ▸ List.mem_cons_of_mem _ List.mem_cons_self)).2.2 hy
      (Action.not_overdue_of_deadline_eq_none rfl)⟩

end Course

end Backpressure.Pipeline
