import Backpressure.Proofs.Numerals
import Backpressure.Proofs.Services
import Backpressure.Proofs.Traces
set_option autoImplicit false

/-!
# What a flood report tells

A report is made to be read by people, but nothing is lost in it: the four figures and the four
limits can be read back from its text. `Flood.read` does so. No figure can be mistaken, since a
number ends where a blank begins, and the word for no limit begins with no digit.

A report is made after the look that found the session over a limit, from the figures and the
limits as they are then. Both belong to one write, in which neither changes, so a report that
goes with a refusal or with a warning shows a limit that is reached. The figures are those of
the session and of the service that owns it, which stands in the ledger.
-/

namespace Backpressure

/-! ## Reading reports -/

namespace Flood

open Json (Step Reads Closed expectWord readDigits)

/-- A number. -/
def readFigure : Step UInt64 := fun cs => do
  let (digits, rest) ← readDigits cs
  return (UInt64.ofNat (Decimal.value digits), rest)

/-- A limit: a number, or the word for none. -/
def readLimit : Step UInt64 := fun cs =>
  match expectWord "unlimited".toList cs with
  | .ok rest => .ok (0, rest)
  | .error _ => readFigure cs

/-- A load beside its limit, in front of their unit. -/
def readUsage (unit : String) : Step (UInt64 × UInt64) := fun cs => do
  let (current, rest) ← readFigure cs
  let rest ← expectWord " / ".toList rest
  let (limit, rest) ← readLimit rest
  let rest ← expectWord (" " ++ unit).toList rest
  return ((current, limit), rest)

/-- The figures and the limits of a report. -/
def readReport : Step (Figures UInt64 × Figures UInt64) := fun cs => do
  let rest ← expectWord "Write requests flooded - local: ".toList cs
  let (localMessages, rest) ← readUsage "msgs" rest
  let rest ← expectWord ", ".toList rest
  let (localBytes, rest) ← readUsage "bytes" rest
  let rest ← expectWord ", global: ".toList rest
  let (globalMessages, rest) ← readUsage "msgs" rest
  let rest ← expectWord ", ".toList rest
  let (globalBytes, rest) ← readUsage "bytes" rest
  return ((⟨localMessages.1, localBytes.1, globalMessages.1, globalBytes.1⟩,
    ⟨localMessages.2, localBytes.2, globalMessages.2, globalBytes.2⟩), rest)

/-- The figures and the limits that a text reports. -/
def read (text : String) : Except Json.Fault (Figures UInt64 × Figures UInt64) :=
  Json.document readReport text

variable {limit : UInt64}

theorem reads_figure (n : UInt64) : Reads readFigure (Decimal.natural n.toNat) n := by
  intro rest hrest
  have hdigits : readDigits (Decimal.natural n.toNat ++ rest) =
      .ok (Decimal.natural n.toNat, rest) :=
    Json.readDigits_append (Json.isWhole_natural n.toNat).toIsDigits hrest.endsDigits
  rw [readFigure, hdigits]
  simp only [bind, Except.bind, Decimal.value_natural, UInt64.ofNat_toNat]
  rfl

theorem limitText_zero : limitText 0 = "unlimited" := rfl

theorem toList_limitText (h : limit ≠ 0) :
    (limitText limit).toList = Decimal.natural limit.toNat := by
  rw [limitText, if_neg h, Decimal.text, String.toList_ofList]

/-- The word for no limit is no number. -/
theorem limitText_eq_unlimited_iff : limitText limit = "unlimited" ↔ limit = 0 := by
  refine ⟨fun h => ?_, fun h => h ▸ limitText_zero⟩
  by_contra hlimit
  have hword : Decimal.natural limit.toNat = "unlimited".toList :=
    (toList_limitText hlimit).symm.trans (congrArg String.toList h)
  have hdigit : Decimal.isDigit 'u' = true :=
    Decimal.isDigit_of_mem_natural (n := limit.toNat) (hword ▸ by decide)
  exact absurd hdigit (by decide)

theorem reads_limit (limit : UInt64) : Reads readLimit (limitText limit).toList limit := by
  intro rest hrest
  by_cases hlimit : limit = 0
  · subst hlimit
    rw [limitText_zero, readLimit, Json.expectWord_append]
  · obtain ⟨c, cs, hcs, hdigit⟩ := Decimal.natural_eq_cons limit.toNat
    have hword : expectWord "unlimited".toList (c :: cs ++ rest) = .error .malformed := by
      refine if_neg ?_
      rintro rfl
      exact absurd hdigit (by decide)
    have hfigure := reads_figure limit rest hrest
    rw [toList_limitText hlimit, readLimit]
    rw [hcs] at hfigure ⊢
    rw [hword]
    exact hfigure

/-- A load, its limit and their unit are read in front of any text. -/
theorem readUsage_append (current limit : UInt64) (unit : String) (rest : List Char) :
    readUsage unit ((usage current limit unit).toList ++ rest) = .ok ((current, limit), rest) := by
  have htext : (usage current limit unit).toList ++ rest =
      Decimal.natural current.toNat ++ (" / ".toList ++ ((limitText limit).toList ++
        ((" " ++ unit).toList ++ rest))) := by
    simp [usage, Decimal.text]
  have hcurrent := reads_figure current
    (" / ".toList ++ ((limitText limit).toList ++ ((" " ++ unit).toList ++ rest)))
    (Json.closed_cons (by decide))
  have hlimit := reads_limit limit ((" " ++ unit).toList ++ rest) (by
    rw [String.toList_append]
    exact Json.closed_cons (by decide))
  rw [htext, readUsage]
  simp only [bind, Except.bind, hcurrent, Json.expectWord_append, hlimit]
  rfl

theorem reads_report (figures limits : Figures UInt64) :
    Reads readReport (report figures limits).toList (figures, limits) := by
  intro rest _
  unfold report
  simp only [String.toList_append, List.append_assoc]
  simp only [readReport, bind, Except.bind, Json.expectWord_append, readUsage_append]
  rfl

/-- What a report shows can be read back from it. -/
theorem read_report (figures limits : Figures UInt64) :
    read (report figures limits) = .ok (figures, limits) :=
  Json.document_of_reads (reads_report figures limits)

theorem report_inj {f l g m : Figures UInt64} : report f l = report g m ↔ f = g ∧ l = m := by
  constructor
  · intro h
    have hread : Except.ok (ε := Json.Fault) (f, l) = .ok (g, m) := by
      rw [← read_report f l, h, read_report]
    exact Prod.mk.inj (Except.ok.inj hread)
  · rintro ⟨rfl, rfl⟩
    rfl

/-- No load and no limit but one. -/
example : report ⟨0, 0, 0, 0⟩ ⟨0, 4, 0, 0⟩ =
    "Write requests flooded - local: 0 / unlimited msgs, 0 / 4 bytes, " ++
      "global: 0 / unlimited msgs, 0 / unlimited bytes" := by
  decide +kernel

end Flood

/-! ## Reports on flooded sessions -/

/-- A session that is over a limit has reached one. -/
theorem Readiness.exists_le_of_flooded {limits : Figures UInt64} {v : View}
    (h : verdict limits v = .flooded) :
    ∃ d, limits.get d ≠ 0 ∧ limits.get d ≤ v.figures.get d := by
  by_contra hnone
  have hwithin : ∀ d, allows (limits.get d) (v.figures.get d) = true := by
    intro d
    refine allows_iff.mpr (or_iff_not_imp_left.mpr fun hlimit => ?_)
    exact UInt64.not_le.mp fun hle => hnone ⟨d, hlimit, hle⟩
  cases hlost : v.lost with
  | true => simp [verdict, examine, hlost] at h
  | false =>
    have hready := verdict_eq_ready_iff.mpr ⟨hlost, .inr hwithin⟩
    rw [hready] at h
    cases h

namespace Roster

/-- Every session is one of a service that there is. -/
def Owned (r : Roster) : Prop := ∀ service ∈ r.owners, service < r.services

theorem Owned.post {r : Roster} (h : r.Owned) (e : Ledger.Entry) : (r.post e).Owned := by
  cases e with
  | openService => exact fun service hs => Nat.lt_succ_of_lt (h service hs)
  | openSession service =>
    unfold Roster.post
    dsimp only
    split
    · rename_i hlt
      intro owner howner
      rcases List.mem_append.mp howner with hold | hnew
      · exact h owner hold
      · exact List.mem_singleton.mp hnew ▸ hlt
    · exact h
  | schedule _ _ | complete _ _ | close _ | lose _ => exact h

end Roster

namespace Ledger

/-- Every session is one of a service that stands in the ledger. -/
def Owned (l : Ledger) : Prop := ∃ r, Enrolled r l ∧ r.Owned

theorem Owned.empty : Owned {} := ⟨{}, Enrolled.empty, fun _ hs => nomatch hs⟩

theorem Owned.post {l : Ledger} (h : l.Owned) (e : Entry) : (l.post e).Owned := by
  obtain ⟨r, henrolled, howned⟩ := h
  exact ⟨r.post e, henrolled.post e, howned.post e⟩

theorem Owned.service {l : Ledger} (h : l.Owned) {session : Nat} {x : Session}
    (hx : l.sessions[session]? = some x) : ∃ v, l.services[x.service]? = some v := by
  obtain ⟨r, henrolled, howned⟩ := h
  have hmem : x.service ∈ r.owners := by
    rw [← henrolled.owners]
    exact List.mem_map_of_mem (List.mem_of_getElem? hx)
  have hlt : x.service < l.services.length := henrolled.services ▸ howned x.service hmem
  exact ⟨l.services[x.service], List.getElem?_eq_getElem hlt⟩

/-- The figures of a session are its own load and that of its service. -/
theorem figures_of_some {l : Ledger} {session : Nat} {x : Session} {v : Service}
    (hx : l.sessions[session]? = some x) (hv : l.services[x.service]? = some v) :
    (l.view session).figures =
      ⟨x.load.messages, x.load.bytes, v.load.messages, v.load.bytes⟩ := by
  rw [view_of_some hx]
  simp only [figures, serviceLoad, hv]
  rfl

end Ledger

namespace Pipeline

/-- What every entry keeps no action takes from the ledger. -/
theorem Scene.ledger_step {s : Scene} {P : Ledger → Prop} (hpost : ∀ l e, P l → P (l.post e))
    (h : P s.ledger) (a : Action) : P (s.step a).ledger := by
  cases a with
  | post entry => exact hpost s.ledger entry h
  | exception _ _ _ => exact Scene.ledger_drain hpost h
  | configure _ | direct _ | write _ _ _ | expire _ _ | wake _ | sent _ _ _ | closed _ _ =>
    exact h

/-- A text is the report on a session as it is: the figures are the load of the session and that
of the service that owns it, the limits are those in force, and one of them is reached. -/
def World.Reports (w : World) (session : Nat) (text : String) : Prop :=
  ∃ (x : Session) (v : Service),
    w.ledger.sessions[session]? = some x ∧ w.ledger.services[x.service]? = some v ∧
      let figures : Figures UInt64 :=
        ⟨x.load.messages, x.load.bytes, v.load.messages, v.load.bytes⟩
      let limits := w.throttle.config.limits
      text = Flood.report figures limits ∧
        ∃ d, Flood.limitText (limits.get d) ≠ "unlimited" ∧ limits.get d ≤ figures.get d

theorem World.reports_of_flooded {w : World} {session : Nat} (howned : w.ledger.Owned)
    (h : w.verdict session = .flooded) : w.Reports session (w.report session) := by
  obtain ⟨x, hx, -⟩ := World.names_of_flooded h
  obtain ⟨v, hv⟩ := howned.service hx
  have hfigures := Ledger.figures_of_some hx hv
  obtain ⟨d, hlimit, hle⟩ := Readiness.exists_le_of_flooded h
  refine ⟨x, v, hx, hv, ?_, d, mt Flood.limitText_eq_unlimited_iff.mp hlimit, ?_⟩
  · rw [World.report, hfigures]
  · rw [← hfigures]
    exact hle

namespace Course

variable {c : Course}

theorem ledger_run {P : Ledger → Prop} (hpost : ∀ l e, P l → P (l.post e))
    (h : P c.world.ledger) (as : List Action) : P (c.run as).world.ledger := by
  induction as generalizing c with
  | nil => exact h
  | cons a as ih =>
    have hstep : P (c.world.scene.step a).ledger := Scene.ledger_step hpost h a
    rw [← scene_step] at hstep
    exact ih hstep

theorem owned_run (s : Settings) (as : List Action) : ((start s).run as).world.ledger.Owned :=
  ledger_run (fun _ e h => h.post e) Ledger.Owned.empty as

theorem mem_eventsOf {t : Nat} {e : Event} : e ∈ c.eventsOf t ↔ .traced t e ∈ c.past := by
  rw [eventsOf, List.mem_map, ← mem_events]
  constructor
  · rintro ⟨⟨u, _⟩, hm, rfl⟩
    obtain ⟨hm, hu⟩ := List.mem_filter.mp hm
    exact beq_iff_eq.mp hu ▸ hm
  · intro hm
    exact ⟨(t, e), List.mem_filter.mpr ⟨hm, beq_self_eq_true t⟩, rfl⟩

/-- A refusal at once tells how the session stood when the write came. -/
theorem refusal_reports (s : Settings) (before after : List Action) (session : Nat)
    (payload : Payload) (now : Instant) {q : Request} {text : String} :
    let c := (start s).run before
    let d := (start s).run (before ++ .write session payload now :: after)
    .refused (.overLimit q text) ∈ d.endingsOf c.world.arrivals →
      c.world.throttle.config.policy = .exception ∧ q = (c.world.issue payload).1 ∧
        c.world.Reports session text := by
  intro c d hmem
  let a := c.arrival session (c.world.issue payload).1 now
  obtain ⟨f, hmeets⟩ := meets_run s before after session payload now
  have hbounces : a.treatment = .bounces :=
    hmeets.fits.overLimit_iff.mp ⟨q, text, hmeets.endingsOf ▸ hmem⟩
  obtain ⟨hpolicy, hflooded⟩ := Arrival.treatment_eq_bounces_iff.mp hbounces
  have hmeet : c.world.scene.meet a =
      some (.refused (.overLimit a.request (c.world.report session))) := by
    rw [Scene.meet, hbounces]
    rfl
  have hends : d.endingsOf c.world.arrivals =
      [.refused (.overLimit a.request (c.world.report session))] := by
    have hended := (ending_run s before after session payload now).2
    rwa [hmeet] at hended
  rw [hends] at hmem
  cases List.mem_singleton.mp hmem
  exact ⟨hpolicy, rfl, World.reports_of_flooded (owned_run s before) hflooded⟩

/-- A warning tells how the session stood when the write came. -/
theorem warning_reports (s : Settings) (before after : List Action) (session : Nat)
    (payload : Payload) (now : Instant) {id : SessionId} {text : String} :
    let c := (start s).run before
    let d := (start s).run (before ++ .write session payload now :: after)
    .warning id text ∈ d.eventsOf c.world.arrivals →
      c.world.throttle.config.policy.warns = true ∧ id = c.world.ledger.idOf session ∧
        c.world.Reports session text := by
  intro c d hmem
  let a := c.arrival session (c.world.issue payload).1 now
  have hevents := (recounts_run s before after session payload now).eventsOf
  have hopening : .warning id text ∈ a.opening (c.world.ledger.idOf session)
      (c.world.report session) (c.world.throttle.gate.ask now
        c.world.throttle.config.logInterval).2 := by
    have huntimed : .warning id text ∈ (d.eventsOf c.world.arrivals).map Event.untimed :=
      List.mem_map.mpr ⟨_, hmem, rfl⟩
    rw [show (d.eventsOf c.world.arrivals).map Event.untimed = _ from hevents] at huntimed
    exact (List.mem_append.mp huntimed).resolve_right (by simp)
  have hwarns : a.warns = true ∧ id = c.world.ledger.idOf session ∧
      text = c.world.report session := by
    unfold Arrival.opening at hopening
    cases hw : a.warns <;> cases hh : a.holds <;> simp_all
  obtain ⟨hwarns, rfl, rfl⟩ := hwarns
  obtain ⟨hpolicy, hflooded⟩ := Bool.and_eq_true_iff.mp hwarns
  exact ⟨hpolicy, rfl, World.reports_of_flooded (owned_run s before) (beq_iff_eq.mp hflooded)⟩

/-- Reports are the same only if all figures and all limits are, where a limit is shown as none
exactly if it is `0`, and all of them can be read back. In every run a write that is refused at once
came under the policy for that, and a write that is warned about under one that warns; the report
that goes with it is the one on its session when it came, with the load of the session itself and
of the service that owns it, and shows a figure that has reached its limit. -/
theorem reports_are_faithful :
    (∀ f l g m, Flood.report f l = Flood.report g m ↔ f = g ∧ l = m) ∧
      (∀ limit, Flood.limitText limit = "unlimited" ↔ limit = 0) ∧
      (∀ f l, Flood.read (Flood.report f l) = .ok (f, l)) ∧
      ∀ (s : Settings) (actions : List Action) (t : Nat),
        let d := (start s).run actions
        (∀ q text, .refused (.overLimit q text) ∈ d.endingsOf t →
          ∃ before session payload now after,
            actions = before ++ .write session payload now :: after ∧
              let c := (start s).run before
              c.world.arrivals = t ∧ c.world.throttle.config.policy = .exception ∧
                q = (c.world.issue payload).1 ∧ c.world.Reports session text) ∧
        ∀ id text, .warning id text ∈ d.eventsOf t →
          ∃ before session payload now after,
            actions = before ++ .write session payload now :: after ∧
              let c := (start s).run before
              c.world.arrivals = t ∧ c.world.throttle.config.policy.warns = true ∧
                id = c.world.ledger.idOf session ∧ c.world.Reports session text := by
  refine ⟨fun f l g m => Flood.report_inj, fun limit => Flood.limitText_eq_unlimited_iff,
    Flood.read_report, fun s actions t => ?_⟩
  intro d
  have hwrite : ∀ x ∈ d.past, x.ticket? = some t → ∃ before session payload now after,
      actions = before ++ .write session payload now :: after ∧
        ((start s).run before).world.arrivals = t := by
    intro x hx ht
    exact exists_write_of_lt actions (Nat.zero_le t) (Known.run s actions x hx t ht)
  refine ⟨fun q text hmem => ?_, fun id text hmem => ?_⟩
  · obtain ⟨before, session, payload, now, after, rfl, ht⟩ :=
      hwrite _ (mem_endingsOf.mp hmem) rfl
    have hreports := refusal_reports s before after session payload now (ht ▸ hmem)
    exact ⟨before, session, payload, now, after, rfl, ht, hreports⟩
  · obtain ⟨before, session, payload, now, after, rfl, ht⟩ :=
      hwrite _ (mem_eventsOf.mp hmem) rfl
    have hreports := warning_reports s before after session payload now (ht ▸ hmem)
    exact ⟨before, session, payload, now, after, rfl, ht, hreports⟩

/-- A write is warned about, then another one is refused. -/
def warnThenRefuse : List Action :=
  [.post .openService, .post (.openSession 0), .post (.schedule 0 10), .write 0 [7] 5,
   .post (.schedule 0 20), .configure (.policy .exception), .write 0 [8] 6]

/-- The warning shows one message of the session, the refusal two. -/
theorem reports_are_faithful_warnThenRefuse :
    let d := (start { limits := ⟨1, 0, 0, 0⟩ }).run warnThenRefuse
    let one := Flood.report ⟨1, 10, 1, 10⟩ ⟨1, 0, 0, 0⟩
    let two := Flood.report ⟨2, 30, 2, 30⟩ ⟨1, 0, 0, 0⟩
    d.eventsOf 0 = [.warning ⟨1⟩ one] ∧ (∃ q, d.endingsOf 1 = [.refused (.overLimit q two)]) ∧
      Flood.read two = .ok (⟨2, 30, 2, 30⟩, ⟨1, 0, 0, 0⟩) ∧
      (∃ before session payload now after,
        warnThenRefuse = before ++ .write session payload now :: after ∧
          let c := (start { limits := ⟨1, 0, 0, 0⟩ }).run before
          c.world.arrivals = 0 ∧ c.world.throttle.config.policy.warns = true ∧
            ⟨1⟩ = c.world.ledger.idOf session ∧ c.world.Reports session one) ∧
      ∃ before session payload now after,
        warnThenRefuse = before ++ .write session payload now :: after ∧
          let c := (start { limits := ⟨1, 0, 0, 0⟩ }).run before
          c.world.arrivals = 1 ∧ c.world.throttle.config.policy = .exception ∧
            ⟨2, [8]⟩ = (c.world.issue payload).1 ∧ c.world.Reports session two := by
  intro d one two
  have hevents : d.eventsOf 0 = [.warning ⟨1⟩ one] := by decide +kernel
  have hends : d.endingsOf 1 = [.refused (.overLimit ⟨2, [8]⟩ two)] := by decide +kernel
  obtain ⟨-, -, hread, hruns⟩ := reports_are_faithful
  have hwarning := (hruns { limits := ⟨1, 0, 0, 0⟩ } warnThenRefuse 0).2 ⟨1⟩ one
    (hevents ▸ List.mem_singleton.mpr rfl)
  have hrefusal := (hruns { limits := ⟨1, 0, 0, 0⟩ } warnThenRefuse 1).1 ⟨2, [8]⟩ two
    (hends ▸ List.mem_singleton.mpr rfl)
  exact ⟨hevents, ⟨_, hends⟩, hread _ _, hwarning, hrefusal⟩

end Course

end Pipeline

end Backpressure
