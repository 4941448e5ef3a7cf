import Backpressure.Proofs.Totals
import Mathlib.Data.List.Nodup
set_option autoImplicit false

/-!
# Services beside each other

All services stand in one ledger, and an entry addresses a session by its place among the
sessions of all services. Still, what the ledger holds of a service and its sessions depends on
the entries about them alone. A `Roster` keeps account of whose each session is, from the entries
that open them; with it an entry about one service is told from the others, and gets the place
that its session has among those of the service. A run of entries and the run of those about one
service then lead to the same service with the same sessions.

So a service numbers its sessions as if there were no other service.
-/

namespace Backpressure

open Ledger (Entry)

/-! ## The entries about one service -/

/-- The number of services, and the service of each session, in order of creation. -/
structure Roster where
  services : Nat := 0
  owners : List Nat := []
  deriving DecidableEq, Repr

namespace Roster

/-- The roster after one more entry of the ledger. -/
def post (r : Roster) : Entry → Roster
  | .openService => { r with services := r.services + 1 }
  | .openSession service =>
    if service < r.services then { r with owners := r.owners ++ [service] } else r
  | .schedule _ _ | .complete _ _ | .close _ | .lose _ => r

/-- The place of a session among those of a service, if it is one of them. -/
def place? (r : Roster) (service session : Nat) : Option Nat :=
  if r.owners[session]? = some service then some ((r.owners.take session).count service) else none

/-- What an entry is to one service alone, which is then the first one: nothing if it is about
another service or a session of another one. -/
def alone (service : Nat) (r : Roster) : Entry → Option Entry
  | .openService => if r.services = service then some .openService else none
  | .openSession owner => if owner = service then some (.openSession 0) else none
  | .schedule session bytes => (r.place? service session).map (.schedule · bytes)
  | .complete session bytes => (r.place? service session).map (.complete · bytes)
  | .close session => (r.place? service session).map .close
  | .lose session => (r.place? service session).map .lose

/-- The entries of a run that are about one service and its sessions, as they are to it alone. -/
def entriesOf (service : Nat) : Roster → List Entry → List Entry
  | _, [] => []
  | r, e :: es => (r.alone service e).toList ++ entriesOf service (r.post e) es

end Roster

/-! ## Changes in one place of a list -/

section Modify

variable {α β : Type} {p : α → Bool} {g : α → α} {x : α} {xs : List α} {i : Nat}

/-- What a change does not touch is the same in all places after it. -/
theorem map_modify_of_eq {f : α → β} (h : ∀ x, f (g x) = f x) (xs : List α) (i : Nat) :
    (xs.modify i g).map f = xs.map f := by
  refine List.ext_getElem? fun j => ?_
  rw [List.getElem?_map, List.getElem?_map, List.getElem?_modify]
  cases xs[j]? with
  | none => rfl
  | some x =>
    simp only [Option.map_some, Option.map_eq_map]
    split
    · rw [h]
    · rfl

/-- A change may be made before or after all values are mapped. -/
theorem map_modify {f : α → β} {k : β → β} (h : ∀ x, f (g x) = k (f x)) (xs : List α) (i : Nat) :
    (xs.modify i g).map f = (xs.map f).modify i k := by
  refine List.ext_getElem? fun j => ?_
  rw [List.getElem?_map, List.getElem?_modify, List.getElem?_modify, List.getElem?_map]
  cases xs[j]? with
  | none => rfl
  | some x =>
    simp only [Option.map_some, Option.map_eq_map]
    split
    · rw [h]
    · rfl

/-- A value that is filtered out may be changed if it stays so. -/
theorem filter_modify_of_not (hp : ∀ x, p (g x) = p x) (h : ∀ x ∈ xs[i]?, p x = false) :
    (xs.modify i g).filter p = xs.filter p := by
  induction xs generalizing i with
  | nil => cases i <;> rfl
  | cons y ys ih =>
    cases i with
    | zero =>
      have hy : p y = false := h y rfl
      rw [List.modify_zero_cons, List.filter_cons_of_neg (by simp [hp, hy]),
        List.filter_cons_of_neg (by simp [hy])]
    | succ i =>
      have hrest := ih (i := i) (by simpa using h)
      simp only [List.modify_succ_cons, List.filter_cons, hrest]

/-- A value that is kept has as many kept values in front of it as it had in front of it before. -/
theorem filter_modify_of_mem (hp : ∀ x, p (g x) = p x) (hx : xs[i]? = some x) (h : p x = true) :
    (xs.modify i g).filter p = (xs.filter p).modify ((xs.take i).countP p) g := by
  induction xs generalizing i with
  | nil => cases hx
  | cons y ys ih =>
    cases i with
    | zero =>
      obtain rfl : y = x := by simpa using hx
      rw [List.modify_zero_cons, List.filter_cons_of_pos (by rw [hp, h]),
        List.filter_cons_of_pos h]
      rfl
    | succ i =>
      have hrest := ih (i := i) (by simpa using hx)
      rw [List.modify_succ_cons, List.take_succ_cons]
      cases hy : p y with
      | true =>
        rw [List.filter_cons_of_pos hy, List.filter_cons_of_pos hy, List.countP_cons_of_pos hy,
          List.modify_succ_cons, hrest]
      | false =>
        have hneg : ¬ p y = true := by simp [hy]
        rw [List.filter_cons_of_neg hneg, List.filter_cons_of_neg hneg,
          List.countP_cons_of_neg hneg, hrest]

/-- The place of a kept value among the kept ones. -/
theorem getElem?_filter_of_mem (hx : xs[i]? = some x) (h : p x = true) :
    (xs.filter p)[(xs.take i).countP p]? = some x := by
  induction xs generalizing i with
  | nil => cases hx
  | cons y ys ih =>
    cases i with
    | zero =>
      obtain rfl : y = x := by simpa using hx
      rw [List.filter_cons_of_pos h]
      rfl
    | succ i =>
      have hrest := ih (i := i) (by simpa using hx)
      rw [List.take_succ_cons]
      cases hy : p y with
      | true =>
        rw [List.filter_cons_of_pos hy, List.countP_cons_of_pos hy, List.getElem?_cons_succ, hrest]
      | false =>
        have hneg : ¬ p y = true := by simp [hy]
        rw [List.filter_cons_of_neg hneg, List.countP_cons_of_neg hneg, hrest]

end Modify

/-- A session is one of a service. -/
def Session.isOf (service : Nat) (x : Session) : Bool := x.service == service

/-- A session of a service that is the first one. -/
def Session.ofFirst (x : Session) : Session := { x with service := 0 }

namespace Ledger

variable {l : Ledger} {r : Roster} {service session : Nat}

/-! ## One service without the others -/

/-- The sessions of a service, in order of creation. -/
def sessionsOf (l : Ledger) (service : Nat) : List Session :=
  l.sessions.filter (Session.isOf service)

/-- One service with its sessions, without the others. -/
def only (l : Ledger) (service : Nat) : Ledger where
  services := l.services[service]?.toList
  sessions := (l.sessionsOf service).map Session.ofFirst

/-- The roster has the services of the ledger, and the service of each session. -/
structure Enrolled (r : Roster) (l : Ledger) : Prop where
  services : l.services.length = r.services
  owners : l.sessions.map Session.service = r.owners

theorem changeLoad_of_some {x : Session} (hx : l.sessions[session]? = some x) (f : Load → Load) :
    l.changeLoad session f =
      { services := l.services.modify x.service fun s => { s with load := f s.load }
        sessions := l.sessions.modify session fun x => { x with load := f x.load } } := by
  rw [← sessions_changeLoad_eq_modify]
  simp only [changeLoad, hx]

theorem changeLoad_of_none (hx : l.sessions[session]? = none) (f : Load → Load) :
    l.changeLoad session f = l := by
  simp only [changeLoad, hx]

theorem openSession_of_some {s : Service} (hs : l.services[service]? = some s) :
    l.openSession service =
      { services := l.services.set service { s with lastId := s.lastId + 1 }
        sessions := l.sessions ++ [{ id := ⟨s.lastId + 1⟩, service := service }] } := by
  simp only [openSession, hs]

theorem openSession_of_none (hs : l.services[service]? = none) : l.openSession service = l := by
  simp only [openSession, hs]

namespace Enrolled

theorem empty : Enrolled {} {} := ⟨rfl, rfl⟩

theorem place?_of_some (h : Enrolled r l) {x : Session} (hx : l.sessions[session]? = some x) :
    r.place? service session =
      if x.service = service then
        some ((l.sessions.take session).countP (Session.isOf service))
      else none := by
  have howner : r.owners[session]? = some x.service := by
    rw [← h.owners, List.getElem?_map, hx]
    rfl
  have hcount : (r.owners.take session).count service =
      (l.sessions.take session).countP (Session.isOf service) := by
    rw [← h.owners, ← List.map_take, List.count, List.countP_map]
    rfl
  simp only [Roster.place?, howner, hcount, Option.some.injEq]

theorem place?_of_none (h : Enrolled r l) (hx : l.sessions[session]? = none) :
    r.place? service session = none := by
  have howner : r.owners[session]? = none := by
    rw [← h.owners, List.getElem?_map, hx]
    rfl
  rw [Roster.place?, if_neg (by simp [howner])]

/-- A change of sessions that leaves them to their services leaves the roster as it is. -/
theorem modify (h : Enrolled r l) {g : Session → Session}
    (hservice : ∀ x, (g x).service = x.service) (session : Nat) :
    Enrolled r { l with sessions := l.sessions.modify session g } :=
  ⟨h.services, (map_modify_of_eq hservice _ _).trans h.owners⟩

theorem changeLoad (h : Enrolled r l) (session : Nat) (f : Load → Load) :
    Enrolled r (l.changeLoad session f) := by
  cases hx : l.sessions[session]? with
  | none =>
    rw [changeLoad_of_none hx]
    exact h
  | some x =>
    rw [changeLoad_of_some hx]
    have hsessions := h.modify (g := fun x => { x with load := f x.load }) (fun _ => rfl) session
    exact ⟨(List.length_modify ..).trans h.services, hsessions.owners⟩

/-- A ledger and its roster stay together. -/
theorem post (h : Enrolled r l) (e : Entry) : Enrolled (r.post e) (l.post e) := by
  cases e with
  | openService =>
    exact ⟨(List.length_append ..).trans (congrArg (· + 1) h.services), h.owners⟩
  | openSession service =>
    unfold Ledger.post Roster.post
    dsimp only
    cases hs : l.services[service]? with
    | none =>
      rw [openSession_of_none hs, if_neg]
      · exact h
      · rw [← h.services]
        exact Nat.not_lt.mpr (List.getElem?_eq_none_iff.mp hs)
    | some s =>
      rw [openSession_of_some hs, if_pos]
      · exact ⟨(List.length_set ..).trans h.services, by simp [h.owners]⟩
      · rw [← h.services]
        exact (List.getElem?_eq_some_iff.mp hs).1
  | schedule session bytes => exact h.changeLoad session (·.add bytes)
  | complete session bytes => exact h.changeLoad session (·.sub bytes)
  | close session =>
    exact h.modify (g := fun x => { x with closing := true }) (fun _ => rfl) session
  | lose session =>
    exact h.modify (g := fun x => { x with lost := true }) (fun _ => rfl) session

/-! ## What an entry is to one service -/

/-- A change of a session is a change of it in its place among those of its service, and nothing
to another service. -/
theorem only_modify (h : Enrolled r l) {g : Session → Session}
    (hservice : ∀ x, (g x).service = x.service) (hfirst : ∀ x, (g x).ofFirst = g x.ofFirst)
    (service session : Nat) :
    ({ l with sessions := l.sessions.modify session g } : Ledger).only service =
      match r.place? service session with
      | none => l.only service
      | some place =>
        { l.only service with sessions := (l.only service).sessions.modify place g } := by
  have hsame : ∀ x, Session.isOf service (g x) = Session.isOf service x :=
    fun x => congrArg (· == service) (hservice x)
  cases hx : l.sessions[session]? with
  | none =>
    rw [h.place?_of_none hx, only, sessionsOf, filter_modify_of_not hsame (by simp [hx])]
    rfl
  | some x =>
    rw [h.place?_of_some hx]
    by_cases hmine : x.service = service
    · rw [if_pos hmine, only, sessionsOf, filter_modify_of_mem hsame hx (beq_iff_eq.mpr hmine),
        map_modify hfirst]
      rfl
    · have hother : ∀ y ∈ l.sessions[session]?, Session.isOf service y = false := by
        rw [hx]
        rintro y hy
        cases hy
        exact beq_eq_false_iff_ne.mpr hmine
      rw [if_neg hmine, only, sessionsOf, filter_modify_of_not hsame hother]
      rfl

/-- A change of load on a session is one on it in its place among those of its service. -/
theorem only_changeLoad (h : Enrolled r l) (session : Nat) (f : Load → Load) :
    (l.changeLoad session f).only service =
      match r.place? service session with
      | none => l.only service
      | some place => (l.only service).changeLoad place f := by
  cases hx : l.sessions[session]? with
  | none => rw [changeLoad_of_none hx, h.place?_of_none hx]
  | some x =>
    have hsessions := congrArg Ledger.sessions (h.only_modify
      (g := fun x => { x with load := f x.load }) (fun _ => rfl) (fun _ => rfl) service session)
    rw [changeLoad_of_some hx]
    rw [h.place?_of_some hx] at hsessions ⊢
    by_cases hmine : x.service = service
    · -- the session stands in its place, and its service is the only one
      have hplace : (l.only service).sessions[
          (l.sessions.take session).countP (Session.isOf service)]? = some x.ofFirst := by
        rw [only, List.getElem?_map, sessionsOf,
          getElem?_filter_of_mem (p := Session.isOf service) hx (beq_iff_eq.mpr hmine)]
        rfl
      rw [if_pos hmine] at hsessions ⊢
      refine Eq.trans ?_ (changeLoad_of_some hplace f).symm
      refine congrArg₂ Ledger.mk ?_ hsessions
      simp only [List.getElem?_modify, hmine, if_true]
      unfold only
      cases l.services[service]? <;> rfl
    · rw [if_neg hmine] at hsessions ⊢
      refine congrArg₂ Ledger.mk ?_ hsessions
      simp only [List.getElem?_modify, hmine, if_false]
      cases l.services[service]? <;> rfl

theorem only_openService (h : Enrolled r l) :
    l.openService.only service =
      if r.services = service then (l.only service).openService else l.only service := by
  have hservices : (l.services ++ [(⟨{}, 0⟩ : Service)])[service]?.toList =
      if r.services = service then l.services[service]?.toList ++ [⟨{}, 0⟩]
      else l.services[service]?.toList := by
    rw [← h.services]
    rcases Nat.lt_trichotomy service l.services.length with hlt | heq | hgt
    · rw [if_neg (Nat.ne_of_gt hlt), List.getElem?_append_left hlt]
    · simp [heq]
    · rw [if_neg (Nat.ne_of_lt hgt), List.getElem?_eq_none (Nat.le_of_lt hgt),
        List.getElem?_eq_none]
      rw [List.length_append]
      exact hgt
  refine (congrArg (Ledger.mk · (l.only service).sessions) hservices).trans ?_
  split <;> rfl

theorem only_openSession (l : Ledger) (owner service : Nat) :
    (l.openSession owner).only service =
      if owner = service then (l.only service).openSession 0 else l.only service := by
  cases hs : l.services[owner]? with
  | none =>
    rw [openSession_of_none hs]
    split
    · rename_i howner
      subst howner
      have hnone : (l.only owner).services[0]? = none := by
        rw [only, hs]
        rfl
      rw [openSession_of_none hnone]
    · rfl
  | some s =>
    have hlt : owner < l.services.length := (List.getElem?_eq_some_iff.mp hs).1
    rw [openSession_of_some hs]
    by_cases howner : owner = service
    · subst howner
      have hfirst : (l.only owner).services[0]? = some s := by
        rw [only, hs]
        rfl
      rw [if_pos rfl, openSession_of_some hfirst]
      refine congrArg₂ Ledger.mk ?_ ?_
      · simp [only, hlt]
      · simp [only, sessionsOf, Session.isOf, Session.ofFirst]
    · rw [if_neg howner]
      refine congrArg₂ Ledger.mk ?_ ?_
      · simp [howner]
      · simp [sessionsOf, Session.isOf, howner]

theorem postAll_toList_map (l : Ledger) (place : Option Nat) (f : Nat → Entry) :
    l.postAll (place.map f).toList =
      match place with
      | none => l
      | some place => l.post (f place) := by
  cases place <;> rfl

/-- To one service an entry is what it is to the service alone. -/
theorem only_post (h : Enrolled r l) (e : Entry) :
    (l.post e).only service = (l.only service).postAll (r.alone service e).toList := by
  cases e with
  | openService =>
    refine h.only_openService.trans ?_
    rw [Roster.alone]
    split <;> rfl
  | openSession owner =>
    refine (only_openSession l owner service).trans ?_
    rw [Roster.alone]
    split <;> rfl
  | schedule session bytes =>
    rw [Roster.alone, postAll_toList_map]
    exact h.only_changeLoad session (·.add bytes)
  | complete session bytes =>
    rw [Roster.alone, postAll_toList_map]
    exact h.only_changeLoad session (·.sub bytes)
  | close session =>
    rw [Roster.alone, postAll_toList_map]
    exact h.only_modify (g := fun x => { x with closing := true }) (fun _ => rfl) (fun _ => rfl)
      service session
  | lose session =>
    rw [Roster.alone, postAll_toList_map]
    exact h.only_modify (g := fun x => { x with lost := true }) (fun _ => rfl) (fun _ => rfl)
      service session

/-- A run of entries leads to one service as the entries about it do. -/
theorem only_postAll (h : Enrolled r l) (entries : List Entry) :
    (l.postAll entries).only service =
      (l.only service).postAll (Roster.entriesOf service r entries) := by
  induction entries generalizing l r with
  | nil => rfl
  | cons e es ih =>
    rw [postAll_cons, ih (h.post e), h.only_post e, Roster.entriesOf, postAll, postAll, postAll,
      List.foldl_append]

end Enrolled

/-! ## Numbers of sessions -/

/-- The last number that a service gave to a session; one that does not exist gave none. -/
def lastIdOf (l : Ledger) (service : Nat) : UInt64 :=
  (l.services[service]?.map Service.lastId).getD 0

/-- The sessions of a service have the numbers from one on, in order of creation, and the service
remembers the last of them. -/
structure Numbered (service : Nat) (l : Ledger) : Prop where
  ids : (l.sessionsOf service).map Session.id =
    (List.range' 1 (l.sessionsOf service).length).map fun n => ⟨UInt64.ofNat n⟩
  last : l.lastIdOf service = UInt64.ofNat (l.sessionsOf service).length

namespace Numbered

theorem empty (service : Nat) : Numbered service {} := ⟨rfl, rfl⟩

/-- Only the identities of sessions and the last numbers of services count. -/
theorem of_eq {m : Ledger} (h : Numbered service l)
    (hids : (m.sessionsOf service).map Session.id = (l.sessionsOf service).map Session.id)
    (hlast : m.lastIdOf service = l.lastIdOf service) : Numbered service m := by
  have hlength : (m.sessionsOf service).length = (l.sessionsOf service).length := by
    rw [← List.length_map Session.id, hids, List.length_map]
  exact ⟨hids.trans (hlength ▸ h.ids), hlast.trans (hlength ▸ h.last)⟩

/-- A change of a session that leaves it its service and its identity changes no numbers. -/
theorem modify (h : Numbered service l) {services : List Service} {g : Session → Session}
    (hservices : services.map Service.lastId = l.services.map Service.lastId)
    (hg : ∀ x, ((g x).service, (g x).id) = (x.service, x.id)) (session : Nat) :
    Numbered service ⟨services, l.sessions.modify session g⟩ := by
  have hids : ∀ k : Ledger, (k.sessionsOf service).map Session.id =
      ((k.sessions.map fun x => (x.service, x.id)).filter (·.1 == service)).map Prod.snd := by
    intro k
    rw [List.filter_map, List.map_map]
    rfl
  refine h.of_eq ?_ ?_
  · rw [hids, hids, map_modify_of_eq hg]
  · rw [lastIdOf, lastIdOf, ← List.getElem?_map, ← List.getElem?_map, hservices]

theorem changeLoad (h : Numbered service l) (session : Nat) (f : Load → Load) :
    Numbered service (l.changeLoad session f) := by
  cases hx : l.sessions[session]? with
  | none =>
    rw [changeLoad_of_none hx]
    exact h
  | some x =>
    have hservices : (l.services.modify x.service fun s => { s with load := f s.load }).map
        Service.lastId = l.services.map Service.lastId :=
      map_modify_of_eq (by exact fun _ => rfl) _ _
    rw [changeLoad_of_some hx]
    exact h.modify hservices (by exact fun _ => rfl) session

theorem openService (h : Numbered service l) : Numbered service l.openService := by
  refine ⟨h.ids, Eq.trans ?_ h.last⟩
  rw [lastIdOf, lastIdOf, Ledger.openService, List.getElem?_append]
  split
  · rfl
  · rename_i hge
    rw [List.getElem?_eq_none (Nat.le_of_not_lt hge)]
    cases service - l.services.length <;> rfl

/-- A new session gets the next number of its service. -/
theorem openSession (h : Numbered service l) (owner : Nat) :
    Numbered service (l.openSession owner) := by
  cases hs : l.services[owner]? with
  | none =>
    rw [openSession_of_none hs]
    exact h
  | some s =>
    have hlt : owner < l.services.length := (List.getElem?_eq_some_iff.mp hs).1
    rw [openSession_of_some hs]
    by_cases howner : owner = service
    · subst howner
      have hlast : s.lastId = UInt64.ofNat (l.sessionsOf owner).length := by
        rw [← h.last, lastIdOf, hs]
        rfl
      have hnext : s.lastId + 1 = UInt64.ofNat (1 + (l.sessionsOf owner).length) := by
        rw [hlast, Nat.add_comm, UInt64.ofNat_add]
        rfl
      have hsessions : ({ services := l.services.set owner { s with lastId := s.lastId + 1 }
                          sessions := l.sessions ++ [⟨⟨s.lastId + 1⟩, owner, {}, false, false⟩] } :
          Ledger).sessionsOf owner =
            l.sessionsOf owner ++ [⟨⟨s.lastId + 1⟩, owner, {}, false, false⟩] := by
        simp [sessionsOf, Session.isOf]
      refine ⟨?_, ?_⟩
      · rw [hsessions, List.map_append, List.length_append, List.length_singleton,
          List.range'_1_concat, List.map_append, h.ids, hnext]
        rfl
      · rw [hsessions, List.length_append, List.length_singleton, Nat.add_comm, ← hnext, lastIdOf]
        simp [hlt]
    · refine h.of_eq ?_ ?_
      · simp [sessionsOf, Session.isOf, howner]
      · simp [lastIdOf, howner]

theorem post (h : Numbered service l) (e : Entry) : Numbered service (l.post e) := by
  cases e with
  | openService => exact h.openService
  | openSession owner => exact h.openSession owner
  | schedule session bytes => exact h.changeLoad session (·.add bytes)
  | complete session bytes => exact h.changeLoad session (·.sub bytes)
  | close session | lose session => exact h.modify rfl (by exact fun _ => rfl) session

theorem postAll (h : Numbered service l) (entries : List Entry) :
    Numbered service (l.postAll entries) := by
  induction entries generalizing l with
  | nil => exact h
  | cons e es ih => exact ih (h.post e)

end Numbered

/-! ## Entries and sessions -/

/-- The session whose load or end an entry is about. -/
def Entry.session? : Entry → Option Nat
  | .schedule session _ | .complete session _ | .close session | .lose session => some session
  | .openService | .openSession _ => none

/-- An entry leaves a session as it is if it is not about it. -/
theorem session_post_of_ne {e : Entry} {x : Session} (hx : l.sessions[session]? = some x)
    (he : e.session? ≠ some session) : (l.post e).sessions[session]? = some x := by
  have hload : ∀ (other : Nat) (f : Load → Load), other ≠ session →
      (l.changeLoad other f).sessions[session]? = some x := by
    intro other f hne
    rw [sessions_changeLoad, hx]
    exact congrArg some (if_neg (Ne.symm hne))
  have hmark : ∀ (other : Nat) (mark : Session → Session), other ≠ session →
      (l.sessions.modify other mark)[session]? = some x := by
    intro other mark hne
    rw [List.getElem?_modify, hx]
    exact congrArg some (if_neg hne)
  cases e with
  | openService => exact hx
  | openSession owner =>
    have hlt : session < l.sessions.length := (List.getElem?_eq_some_iff.mp hx).1
    cases hs : l.services[owner]? with
    | none =>
      rw [post, openSession_of_none hs]
      exact hx
    | some s =>
      rw [post, openSession_of_some hs]
      exact (List.getElem?_append_left hlt).trans hx
  | schedule other bytes => exact hload other (·.add bytes) fun h => he (congrArg some h)
  | complete other bytes => exact hload other (·.sub bytes) fun h => he (congrArg some h)
  | close other | lose other => exact hmark other _ fun h => he (congrArg some h)

/-- What becomes of a service and its sessions in a run is what becomes of them in the run of the
entries about them alone: the load of the service, and of each session its identity, its load and
whether it is closing. The sessions of a service are numbered from one on, in order of creation,
and have different identities as long as a word can count them. No entry changes a session that
it is not about. -/
theorem services_are_isolated (entries : List Entry) (service : Nat) :
    let l := ({} : Ledger).postAll entries
    let own := l.sessionsOf service
    l.only service = ({} : Ledger).postAll (Roster.entriesOf service {} entries) ∧
      own.map Session.id = (List.range' 1 own.length).map (fun n => ⟨UInt64.ofNat n⟩) ∧
      (own.length < UInt64.size →
        own.map (·.id.value.toNat) = List.range' 1 own.length ∧
          own.map (·.id.text) =
            (List.range' 1 own.length).map (fun n => "session-" ++ Decimal.text n) ∧
          (own.map Session.id).Nodup) ∧
      ∀ e session x, l.sessions[session]? = some x → e.session? ≠ some session →
        (l.post e).sessions[session]? = some x := by
  intro l own
  have hids : own.map Session.id = (List.range' 1 own.length).map fun n => ⟨UInt64.ofNat n⟩ :=
    ((Numbered.empty service).postAll entries).ids
  refine ⟨Enrolled.empty.only_postAll entries, hids, fun hfew => ?_,
    fun e session x => session_post_of_ne⟩
  have hnumbers : own.map (·.id.value.toNat) = List.range' 1 own.length := by
    calc own.map (·.id.value.toNat)
        = (own.map Session.id).map (·.value.toNat) := by rw [List.map_map]; rfl
      _ = (List.range' 1 own.length).map fun n => (UInt64.ofNat n).toNat := by
        rw [hids, List.map_map]
        rfl
      _ = List.range' 1 own.length := by
        refine (List.map_congr_left fun n hn => ?_).trans (List.map_id _)
        have hle : n ≤ own.length := by
          rw [List.mem_range'_1] at hn
          omega
        exact UInt64.toNat_ofNat_of_lt (Nat.lt_of_le_of_lt hle hfew)
  have hnodup : ((own.map Session.id).map (·.value.toNat)).Nodup := by
    rw [List.map_map]
    exact hnumbers ▸ List.nodup_range' 1
  refine ⟨hnumbers, ?_, hnodup.of_map⟩
  rw [← hnumbers, List.map_map]
  rfl

/-- Two services with two sessions each, opened in turn, and bytes that run over on the first
session of the second service. -/
def twoServices : List Entry :=
  [.openService, .openSession 0, .openService, .openSession 1, .openSession 0, .openSession 1,
   .schedule 1 0xFFFF_FFFF_FFFF_FFFF, .schedule 0 7, .schedule 1 2, .complete 2 9, .close 3]

/-- The second service sees four of these entries as entries on its own two sessions, which have
different identities. -/
theorem services_are_isolated_twoServices :
    let l := ({} : Ledger).postAll twoServices
    Roster.entriesOf 1 {} twoServices =
        [.openService, .openSession 0, .openSession 0, .schedule 0 0xFFFF_FFFF_FFFF_FFFF,
         .schedule 0 2, .close 1] ∧
      l.only 1 = ({} : Ledger).postAll (Roster.entriesOf 1 {} twoServices) ∧
      l.only 1 =
        { services := [⟨⟨2, 1⟩, 2⟩]
          sessions := [⟨⟨1⟩, 0, ⟨2, 1⟩, false, false⟩, ⟨⟨2⟩, 0, ⟨0, 0⟩, true, false⟩] } ∧
      (l.sessionsOf 1).length = 2 ∧ ((l.sessionsOf 1).map Session.id).Nodup ∧
      l.sessions[0]? = (l.post (.complete 1 5)).sessions[0]? := by
  intro l
  obtain ⟨honly, -, hfew, hframe⟩ := services_are_isolated twoServices 1
  refine ⟨by decide, honly, by decide, by decide, (hfew (by decide)).2.2, ?_⟩
  exact (hframe (.complete 1 5) 0 ⟨⟨1⟩, 0, ⟨1, 7⟩, false, false⟩ (by decide) (by decide)).symm

end Ledger

end Backpressure
