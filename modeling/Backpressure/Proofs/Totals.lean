import Backpressure.Proofs.Loads
import Mathlib.Algebra.GroupWithZero.Nat
import Mathlib.Algebra.Order.BigOperators.Group.List
import Mathlib.Algebra.Order.Group.Nat
import Mathlib.Data.List.Induction
import Mathlib.Data.List.Infix
set_option autoImplicit false

/-!
# The load of a service and those of its sessions

What is outstanding on a session is what was scheduled on it less what was completed, and
nothing once more was completed. A `Book` keeps account of this in unbounded numbers, in
one measure. The ledger keeps it in machine words, and keeps a counter for each service
beside those of its sessions.

As long as what is outstanding on the sessions of a service stays below the size of a word,
the counter of each of these sessions is what the book says, and the service counts no more
than they do together. It counts less after a completion that found too little outstanding:
there the counter of the session stops at zero while that of the service goes on down.
-/

namespace Backpressure

/-! ## The book -/

/-- The account of a session: what was scheduled on it, what was completed on it, and what
is outstanding. -/
structure Account where
  service : Nat
  scheduled : Nat := 0
  completed : Nat := 0
  outstanding : Nat := 0
  deriving DecidableEq, Repr

namespace Account

/-- Some more is scheduled. -/
def schedule (a : Account) (n : Nat) : Account :=
  { a with scheduled := a.scheduled + n, outstanding := a.outstanding + n }

/-- Some is completed. -/
def complete (a : Account) (n : Nat) : Account :=
  { a with completed := a.completed + n, outstanding := a.outstanding - n }

/-- What an account contributes to a service. -/
def share (service : Nat) (a : Account) : Nat :=
  if a.service = service then a.outstanding else 0

theorem share_of_eq {a : Account} {service : Nat} (h : a.service = service) :
    a.share service = a.outstanding := if_pos h

theorem share_of_ne {a : Account} {service : Nat} (h : a.service ≠ service) :
    a.share service = 0 := if_neg h

end Account

/-- The number of services, and the account of each session in order of creation. -/
structure Book where
  services : Nat := 0
  accounts : List Account := []
  deriving DecidableEq, Repr

namespace Book

/-- Opens an account for a session of a service, if there is that service. -/
def openSession (b : Book) (service : Nat) : Book :=
  if service < b.services then { b with accounts := b.accounts ++ [{ service := service }] }
  else b

/-- Changes the account of a session. -/
def changeAccount (b : Book) (session : Nat) (g : Account → Account) : Book :=
  { b with accounts := b.accounts.modify session g }

/-- The book with one more entry of the ledger. -/
def post (m : Measure) (b : Book) : Ledger.Entry → Book
  | .openService => { b with services := b.services + 1 }
  | .openSession service => b.openSession service
  | .schedule session bytes => b.changeAccount session (·.schedule (m.amount bytes).toNat)
  | .complete session bytes => b.changeAccount session (·.complete (m.amount bytes).toNat)
  | .close _ | .lose _ => b

/-- The book of several entries. -/
def ofEntries (m : Measure) (entries : List Ledger.Entry) : Book := entries.foldl (post m) {}

/-- What is outstanding on all sessions of a service. -/
def outstanding (b : Book) (service : Nat) : Nat := (b.accounts.map (Account.share service)).sum

/-- A completion on a session of the service finds enough outstanding. -/
def Covers (m : Measure) (service : Nat) (b : Book) : Ledger.Entry → Prop
  | .complete session bytes =>
    ∀ a ∈ b.accounts[session]?, a.service = service → (m.amount bytes).toNat ≤ a.outstanding
  | .openService | .openSession _ | .schedule .. | .close _ | .lose _ => True

instance (m : Measure) (service : Nat) (b : Book) :
    (e : Ledger.Entry) → Decidable (b.Covers m service e)
  | .complete session bytes =>
    inferInstanceAs (Decidable (∀ a ∈ b.accounts[session]?, a.service = service →
      (m.amount bytes).toNat ≤ a.outstanding))
  | .openService | .openSession _ | .schedule .. | .close _ | .lose _ =>
    inferInstanceAs (Decidable True)

/-- At every point of a run of entries, what is outstanding on the sessions of a service
fits a word. -/
def Fits (m : Measure) (service : Nat) (entries : List Ledger.Entry) : Prop :=
  ∀ earlier, earlier <+: entries → (ofEntries m earlier).outstanding service < UInt64.size

/-- Every completion of a run of entries on a session of a service finds enough outstanding. -/
def Covered (m : Measure) (service : Nat) (entries : List Ledger.Entry) : Prop :=
  ∀ earlier e, earlier ++ [e] <+: entries → (ofEntries m earlier).Covers m service e

instance (m : Measure) (service : Nat) (entries : List Ledger.Entry) :
    Decidable (Fits m service entries) :=
  decidable_of_iff (∀ p ∈ entries.inits, (ofEntries m p).outstanding service < UInt64.size)
    (forall_congr' fun p => by rw [List.mem_inits])

instance (m : Measure) (service : Nat) (entries : List Ledger.Entry) :
    Decidable (Covered m service entries) :=
  decidable_of_iff (∀ p ∈ entries.inits, ∀ e ∈ p.getLast?,
      (ofEntries m p.dropLast).Covers m service e) <| by
    constructor
    · intro h earlier e hp
      simpa using h (earlier ++ [e]) ((List.mem_inits _ _).mpr hp) e (by simp)
    · intro h p hp e he
      apply h
      rw [List.dropLast_append_getLast? e he]
      exact (List.mem_inits _ _).mp hp

variable {b : Book} {m : Measure} {service session : Nat}

theorem ofEntries_concat (m : Measure) (entries : List Ledger.Entry) (e : Ledger.Entry) :
    ofEntries m (entries ++ [e]) = (ofEntries m entries).post m e := by
  simp [ofEntries]

section Run

variable {entries : List Ledger.Entry} {e : Ledger.Entry}

theorem Fits.init (h : Fits m service (entries ++ [e])) : Fits m service entries :=
  fun earlier hp => h earlier (hp.trans (List.prefix_append _ _))

theorem Fits.last (h : Fits m service (entries ++ [e])) :
    ((ofEntries m entries).post m e).outstanding service < UInt64.size := by
  rw [← ofEntries_concat]
  exact h _ List.prefix_rfl

theorem Covered.init (h : Covered m service (entries ++ [e])) : Covered m service entries :=
  fun earlier next hp => h earlier next (hp.trans (List.prefix_append _ _))

theorem Covered.last (h : Covered m service (entries ++ [e])) :
    (ofEntries m entries).Covers m service e := h entries e List.prefix_rfl

end Run

theorem share_le_outstanding {a : Account} (ha : b.accounts[session]? = some a) :
    a.share service ≤ b.outstanding service := by
  apply List.le_sum_of_mem
  exact List.mem_map_of_mem (List.mem_of_getElem? ha)

/-- A change of one account changes the sum by what it changes there. -/
theorem sum_map_modify {α : Type} (f : α → Nat) (g : α → α) {xs : List α} {i : Nat} {x : α}
    (hx : xs[i]? = some x) :
    ((xs.modify i g).map f).sum + f x = (xs.map f).sum + f (g x) := by
  induction xs generalizing i with
  | nil => simp at hx
  | cons y ys ih =>
    cases i with
    | zero =>
      obtain rfl : y = x := by simpa using hx
      simp only [List.modify_zero_cons, List.map_cons, List.sum_cons]
      omega
    | succ i =>
      have hrest := ih (i := i) (by simpa using hx)
      simp only [List.modify_succ_cons, List.map_cons, List.sum_cons]
      omega

theorem outstanding_openSession {owner : Nat} :
    (b.openSession owner).outstanding service = b.outstanding service := by
  unfold openSession outstanding
  split
  · simp [Account.share]
  · rfl

theorem accounts_changeAccount {g : Account → Account} {a : Account}
    (ha : b.accounts[session]? = some a) :
    (b.changeAccount session g).accounts[session]? = some (g a) := by
  simp [changeAccount, ha]

theorem mem_accounts_changeAccount {g : Account → Account} {a : Account}
    (ha : a ∈ (b.changeAccount session g).accounts) :
    a ∈ b.accounts ∨ ∃ a', b.accounts[session]? = some a' ∧ g a' = a := by
  obtain ⟨i, hi⟩ := List.getElem?_of_mem ha
  rw [changeAccount, List.getElem?_modify] at hi
  obtain ⟨a', ha', hsame⟩ := Option.map_eq_some_iff.mp hi
  by_cases hsession : session = i
  · rw [if_pos hsession] at hsame
    exact .inr ⟨a', hsession ▸ ha', hsame⟩
  · rw [if_neg hsession] at hsame
    exact .inl (hsame ▸ List.mem_of_getElem? ha')

theorem changeAccount_of_none {g : Account → Account} (ha : b.accounts[session]? = none) :
    b.changeAccount session g = b := by
  have hmodify : b.accounts.modify session g = b.accounts :=
    List.modify_eq_self (List.getElem?_eq_none_iff.mp ha)
  rw [changeAccount, hmodify]

theorem outstanding_changeAccount {g : Account → Account} {a : Account}
    (ha : b.accounts[session]? = some a) :
    (b.changeAccount session g).outstanding service + a.share service =
      b.outstanding service + (g a).share service :=
  sum_map_modify (Account.share service) g ha

/-! ## Accounts that balance -/

/-- On every session of a service what is outstanding is what was scheduled less what was
completed. -/
def Balanced (service : Nat) (b : Book) : Prop :=
  ∀ a ∈ b.accounts, a.service = service → a.outstanding + a.completed = a.scheduled

namespace Balanced

theorem changeAccount (h : b.Balanced service) {g : Account → Account}
    (hg : ∀ a, b.accounts[session]? = some a → (g a).service = service →
      (g a).outstanding + (g a).completed = (g a).scheduled) :
    (b.changeAccount session g).Balanced service := by
  intro a ha hservice
  rcases mem_accounts_changeAccount ha with ha | ⟨a', ha', rfl⟩
  · exact h a ha hservice
  · exact hg a' ha' hservice

theorem openSession (h : b.Balanced service) (owner : Nat) :
    (b.openSession owner).Balanced service := by
  unfold Book.openSession
  split
  · intro a ha hservice
    rcases List.mem_append.mp ha with ha | ha
    · exact h a ha hservice
    · rw [List.mem_singleton.mp ha]
      rfl
  · exact h

/-- An entry keeps the accounts of a service balanced if it finds enough outstanding. -/
theorem post (h : b.Balanced service) {e : Ledger.Entry} (hcovers : b.Covers m service e) :
    (b.post m e).Balanced service := by
  cases e with
  | openService => exact h
  | close session | lose session => exact h
  | openSession owner => exact h.openSession owner
  | schedule session bytes =>
    apply h.changeAccount
    intro a ha hservice
    have hbefore := h a (List.mem_of_getElem? ha) hservice
    simp only [Account.schedule]
    omega
  | complete session bytes =>
    apply h.changeAccount
    intro a ha hservice
    have hbefore := h a (List.mem_of_getElem? ha) hservice
    have henough := hcovers a ha hservice
    simp only [Account.complete]
    omega

end Balanced

end Book

namespace Ledger

/-! ## The ledger beside the book -/

/-- What the counter of a session contributes to a service. -/
def share (m : Measure) (service : Nat) (x : Session) : Nat :=
  if x.service = service then (x.load.get m).toNat else 0

/-- The counters of all sessions of a service together. -/
def total (l : Ledger) (m : Measure) (service : Nat) : Nat :=
  (l.sessions.map (share m service)).sum

/-- The counter of a service. -/
def count (l : Ledger) (m : Measure) (service : Nat) : Nat :=
  ((l.serviceLoad service).get m).toNat

/-- The ledger has the services and the sessions of the book, and the counters of the
sessions of one service are what is outstanding there. -/
structure Mirrors (m : Measure) (service : Nat) (l : Ledger) (b : Book) : Prop where
  services : l.services.length = b.services
  owners : l.sessions.map Session.service = b.accounts.map Account.service
  owned : ∀ a ∈ b.accounts, a.service < b.services
  shares : l.sessions.map (share m service) = b.accounts.map (Account.share service)

variable {l : Ledger} {b : Book} {m : Measure} {service session : Nat} {f : Load → Load}

theorem sessions_changeLoad_eq_modify :
    (l.changeLoad session f).sessions =
      l.sessions.modify session fun x => { x with load := f x.load } := by
  apply List.ext_getElem?
  intro i
  rw [sessions_changeLoad, List.getElem?_modify]
  simp only [eq_comm (a := i)]
  cases l.sessions[i]? with
  | none => rfl
  | some x => simp

/-- Two lists that agree go on to agree when they are changed alike in one place. -/
theorem map_modify_congr {α β γ : Type} {h : α → γ} {k : β → γ} {f : α → α} {g : β → β}
    {xs : List α} {ys : List β} {i : Nat} (hsame : xs.map h = ys.map k)
    (hi : ∀ x y, xs[i]? = some x → ys[i]? = some y → h (f x) = k (g y)) :
    (xs.modify i f).map h = (ys.modify i g).map k := by
  apply List.ext_getElem?
  intro j
  have hj := congrArg (·[j]?) hsame
  simp only [List.getElem?_map, List.getElem?_modify] at hj ⊢
  by_cases hij : i = j
  · subst hij
    cases hx : xs[i]? with
    | none =>
      cases hy : ys[i]? with
      | none => rfl
      | some y => simp [hx, hy] at hj
    | some x =>
      cases hy : ys[i]? with
      | none => simp [hx, hy] at hj
      | some y => simp [hi x y hx hy]
  · simpa [hij] using hj

theorem count_openService : l.openService.count m service = l.count m service := by
  simp only [count, serviceLoad, openService, List.getElem?_append]
  split
  · rfl
  · rename_i hge
    rw [List.getElem?_eq_none (Nat.le_of_not_lt hge)]
    cases hlast : [({} : Service)][service - l.services.length]? with
    | none => rfl
    | some s =>
      rw [List.mem_singleton.mp (List.mem_of_getElem? hlast)]
      rfl

theorem count_openSession (owner : Nat) :
    (l.openSession owner).count m service = l.count m service := by
  unfold openSession
  cases hs : l.services[owner]? with
  | none => rfl
  | some s =>
    simp only [count, serviceLoad, List.getElem?_set]
    by_cases howner : owner = service
    · subst howner
      obtain ⟨hlt, hget⟩ := List.getElem?_eq_some_iff.mp hs
      simp [hlt, hget]
    · simp [howner]

theorem count_changeLoad {x : Session} (hx : l.sessions[session]? = some x)
    (hlt : x.service < l.services.length) :
    (l.changeLoad session f).count m service =
      if x.service = service then ((f (l.serviceLoad service)).get m).toNat
      else l.count m service := by
  rw [count, serviceLoad_changeLoad hx]
  by_cases hservice : x.service = service
  · subst hservice
    rw [if_pos ⟨rfl, hlt⟩, if_pos rfl]
  · rw [if_neg fun hboth => hservice hboth.1.symm, if_neg hservice, count]

theorem share_of_eq {x : Session} (h : x.service = service) :
    share m service x = (x.load.get m).toNat := if_pos h

theorem share_of_ne {x : Session} (h : x.service ≠ service) : share m service x = 0 := if_neg h

section Share

variable {x : Session} {a : Account} {bytes : UInt64}

theorem share_complete (hservice : a.service = x.service)
    (hshare : a.share service = share m service x) :
    share m service { x with load := x.load.sub bytes } =
      (a.complete (m.amount bytes).toNat).share service := by
  by_cases hmine : x.service = service
  · have ha : a.service = service := hservice.trans hmine
    simp only [share, Account.share, Account.complete, hmine, ha, if_true] at hshare ⊢
    rw [Load.get_sub, toNat_saturatingSub, hshare]
  · have ha : a.service ≠ service := hservice ▸ hmine
    simp only [share, Account.share, Account.complete, hmine, ha, if_false]

theorem share_schedule (hservice : a.service = x.service)
    (hshare : a.share service = share m service x)
    (hfit : (a.schedule (m.amount bytes).toNat).share service < UInt64.size) :
    share m service { x with load := x.load.add bytes } =
      (a.schedule (m.amount bytes).toNat).share service := by
  by_cases hmine : x.service = service
  · have ha : a.service = service := hservice.trans hmine
    simp only [share, Account.share, Account.schedule, hmine, ha, if_true] at hshare hfit ⊢
    rw [Load.get_add, UInt64.toNat_add, ← hshare]
    exact Nat.mod_eq_of_lt hfit
  · have ha : a.service ≠ service := hservice ▸ hmine
    simp only [share, Account.share, Account.schedule, hmine, ha, if_false]

end Share

namespace Mirrors

theorem empty : Mirrors m service {} {} := ⟨rfl, rfl, by simp, rfl⟩

theorem total_eq (h : Mirrors m service l b) : l.total m service = b.outstanding service := by
  rw [total, h.shares, Book.outstanding]

/-- A session has an account, which is on the same service and contributes the same. -/
theorem account (h : Mirrors m service l b) {x : Session} (hx : l.sessions[session]? = some x) :
    ∃ a, b.accounts[session]? = some a ∧ a.service = x.service ∧
      x.service < l.services.length ∧ a.share service = share m service x := by
  have howner := congrArg (·[session]?) h.owners
  have hshare := congrArg (·[session]?) h.shares
  simp only [List.getElem?_map, hx, Option.map_some] at howner hshare
  cases ha : b.accounts[session]? with
  | none => simp [ha] at howner
  | some a =>
    simp only [ha, Option.map_some, Option.some.injEq] at howner hshare
    refine ⟨a, rfl, howner.symm, ?_, hshare.symm⟩
    rw [h.services, howner]
    exact h.owned a (List.mem_of_getElem? ha)

/-- What stands in one place of the ledger and of the book belongs together. -/
theorem agree (h : Mirrors m service l b) {x : Session} {a : Account}
    (hx : l.sessions[session]? = some x) (ha : b.accounts[session]? = some a) :
    a.service = x.service ∧ a.share service = share m service x := by
  obtain ⟨a', ha', hservice, -, hshare⟩ := h.account hx
  obtain rfl : a' = a := Option.some.inj (ha'.symm.trans ha)
  exact ⟨hservice, hshare⟩

theorem account_none (h : Mirrors m service l b) (hx : l.sessions[session]? = none) :
    b.accounts[session]? = none := by
  have howner := congrArg (·[session]?) h.owners
  simpa [List.getElem?_map, hx] using howner.symm

/-- Changing a session and its account alike keeps the ledger in step with the book. -/
theorem changeLoad (h : Mirrors m service l b) {g : Account → Account}
    (howner : ∀ a, (g a).service = a.service)
    (hshare : ∀ x a, l.sessions[session]? = some x → b.accounts[session]? = some a →
      share m service { x with load := f x.load } = (g a).share service) :
    Mirrors m service (l.changeLoad session f)
      (b.changeAccount session g) := by
  constructor
  case services =>
    refine Eq.trans ?_ h.services
    unfold Ledger.changeLoad
    split
    · rfl
    · exact List.length_modify ..
  case owners =>
    rw [sessions_changeLoad_eq_modify]
    refine map_modify_congr h.owners fun x a hx ha => ?_
    rw [howner]
    exact (h.agree hx ha).1.symm
  case owned =>
    intro a ha
    rcases Book.mem_accounts_changeAccount ha with ha | ⟨a', ha', rfl⟩
    · exact h.owned a ha
    · rw [howner]
      exact h.owned a' (List.mem_of_getElem? ha')
  case shares =>
    rw [sessions_changeLoad_eq_modify]
    exact map_modify_congr h.shares hshare

theorem openSession (h : Mirrors m service l b) (owner : Nat) :
    Mirrors m service (l.openSession owner) (b.openSession owner) := by
  unfold Ledger.openSession Book.openSession
  by_cases howner : owner < b.services
  · have hlt : owner < l.services.length := h.services.symm ▸ howner
    rw [List.getElem?_eq_getElem hlt, if_pos howner]
    constructor
    case services => simp [h.services]
    case owners => simp [h.owners]
    case owned =>
      intro a ha
      rcases List.mem_append.mp ha with ha | ha
      · exact h.owned a ha
      · rwa [List.mem_singleton.mp ha]
    case shares => simp [h.shares, share, Account.share]
  · have hge : l.services.length ≤ owner := h.services.symm ▸ Nat.le_of_not_lt howner
    rw [List.getElem?_eq_none hge, if_neg howner]
    exact h

/-- What is said of a session beside its load does not show in the book. -/
theorem mark (h : Mirrors m service l b) {g : Session → Session}
    (howner : ∀ x, (g x).service = x.service) (hload : ∀ x, (g x).load = x.load) :
    Mirrors m service { l with sessions := l.sessions.modify session g } b := by
  have hsame : ∀ {γ : Type} (k : Session → γ), (∀ x, k (g x) = k x) →
      (l.sessions.modify session g).map k = l.sessions.map k := by
    intro γ k hk
    have hagree : ∀ x y, l.sessions[session]? = some x → l.sessions[session]? = some y →
        k (g x) = k (id y) := by
      intro x y hx hy
      obtain rfl : x = y := Option.some.inj (hx.symm.trans hy)
      exact hk x
    have hmodify : (l.sessions.modify session g).map k = (l.sessions.modify session id).map k :=
      map_modify_congr rfl hagree
    simpa using hmodify
  refine ⟨h.services, ?_, h.owned, ?_⟩
  · exact (hsame _ howner).trans h.owners
  · exact (hsame _ fun x => by simp [share, howner, hload]).trans h.shares

/-- An entry keeps the ledger in step with the book, if what is then outstanding fits. -/
theorem post (h : Mirrors m service l b) (e : Entry)
    (hfit : (b.post m e).outstanding service < UInt64.size) :
    Mirrors m service (l.post e) (b.post m e) := by
  cases e with
  | openService =>
    refine ⟨by simp [Ledger.post, openService, Book.post, h.services], h.owners, ?_, h.shares⟩
    exact fun a ha => Nat.lt_succ_of_lt (h.owned a ha)
  | openSession owner => exact h.openSession owner
  | close session => exact h.mark (fun _ => rfl) (fun _ => rfl)
  | lose session => exact h.mark (fun _ => rfl) (fun _ => rfl)
  | schedule session bytes =>
    apply changeLoad (f := (·.add bytes)) (g := (·.schedule (m.amount bytes).toNat)) h
      fun _ => rfl
    intro x a hx ha
    obtain ⟨hservice, hshare⟩ := h.agree hx ha
    apply share_schedule hservice hshare
    exact Nat.lt_of_le_of_lt (Book.share_le_outstanding (Book.accounts_changeAccount ha)) hfit
  | complete session bytes =>
    apply changeLoad (f := (·.sub bytes)) (g := (·.complete (m.amount bytes).toNat)) h
      fun _ => rfl
    intro x a hx ha
    obtain ⟨hservice, hshare⟩ := h.agree hx ha
    exact share_complete hservice hshare

end Mirrors

/-! ## The counter of a service -/

/-- What an entry does to the counter of a service and to what is outstanding on its
sessions. -/
inductive Movement (m : Measure) (service : Nat) (l : Ledger) (b : Book) : Entry → Prop
  /-- The entry is about something else. -/
  | none {e : Entry} (hcount : (l.post e).count m service = l.count m service)
      (hsum : (b.post m e).outstanding service = b.outstanding service) :
      Movement m service l b e
  /-- A write is scheduled on one of its sessions. -/
  | schedule {session : Nat} {bytes : UInt64}
      (hcount : (l.post (.schedule session bytes)).count m service =
        (l.count m service + (m.amount bytes).toNat) % UInt64.size)
      (hsum : (b.post m (.schedule session bytes)).outstanding service =
        b.outstanding service + (m.amount bytes).toNat) :
      Movement m service l b (.schedule session bytes)
  /-- A write is completed on one of its sessions. -/
  | complete {session : Nat} {bytes : UInt64} {a : Account}
      (ha : b.accounts[session]? = some a) (hservice : a.service = service)
      (hcount : (l.post (.complete session bytes)).count m service =
        l.count m service - (m.amount bytes).toNat)
      (hsum : (b.post m (.complete session bytes)).outstanding service + a.outstanding =
        b.outstanding service + (a.outstanding - (m.amount bytes).toNat)) :
      Movement m service l b (.complete session bytes)

namespace Mirrors

/-- A change of load on some session leaves the counter of the service and the sum alone,
or it changes both of them. -/
theorem changeLoad_cases (h : Mirrors m service l b) (session : Nat) (f : Load → Load)
    {g : Account → Account} (howner : ∀ a, (g a).service = a.service) :
    ((l.changeLoad session f).count m service = l.count m service ∧
        (b.changeAccount session g).outstanding service = b.outstanding service) ∨
      ∃ a, b.accounts[session]? = some a ∧ a.service = service ∧
        (l.changeLoad session f).count m service = ((f (l.serviceLoad service)).get m).toNat ∧
        (b.changeAccount session g).outstanding service + a.outstanding =
          b.outstanding service + (g a).outstanding := by
  cases hx : l.sessions[session]? with
  | none =>
    have ha : b.accounts[session]? = none := h.account_none hx
    rw [Ledger.changeLoad, hx, Book.changeAccount_of_none ha]
    exact .inl ⟨rfl, rfl⟩
  | some x =>
    obtain ⟨a, ha, hservice, hlt, -⟩ := h.account hx
    have hsum : (b.changeAccount session g).outstanding service + a.share service =
        b.outstanding service + (g a).share service := Book.outstanding_changeAccount ha
    rw [count_changeLoad hx hlt]
    by_cases hmine : x.service = service
    · have hmine' : a.service = service := hservice.trans hmine
      rw [Account.share_of_eq hmine', Account.share_of_eq ((howner a).trans hmine')] at hsum
      exact .inr ⟨a, ha, hmine', if_pos hmine, hsum⟩
    · have hother : a.service ≠ service := hservice ▸ hmine
      rw [Account.share_of_ne hother, Account.share_of_ne (howner a ▸ hother)] at hsum
      exact .inl ⟨if_neg hmine, hsum⟩

theorem movement (h : Mirrors m service l b) (e : Entry) : Movement m service l b e := by
  cases e with
  | openService => exact .none count_openService rfl
  | openSession owner => exact .none (count_openSession owner) Book.outstanding_openSession
  | close session | lose session => exact .none rfl rfl
  | schedule session bytes =>
    rcases h.changeLoad_cases session (·.add bytes)
      (g := (·.schedule (m.amount bytes).toNat)) (fun _ => rfl) with
      ⟨hcount, hsum⟩ | ⟨a, -, -, hcount, hsum⟩
    · exact .none hcount hsum
    · refine .schedule (hcount.trans ?_) ?_
      · rw [Load.get_add, UInt64.toNat_add]
        rfl
      · have hafter : (a.schedule (m.amount bytes).toNat).outstanding =
            a.outstanding + (m.amount bytes).toNat := rfl
        simp only [Book.post]
        omega
  | complete session bytes =>
    rcases h.changeLoad_cases session (·.sub bytes)
      (g := (·.complete (m.amount bytes).toNat)) (fun _ => rfl) with
      ⟨hcount, hsum⟩ | ⟨a, ha, hservice, hcount, hsum⟩
    · exact .none hcount hsum
    · refine .complete ha hservice (hcount.trans ?_) hsum
      rw [Load.get_sub, toNat_saturatingSub]
      rfl

/-- The counter of a service stays within what is outstanding on its sessions. -/
theorem count_post_le (h : Mirrors m service l b) (e : Entry)
    (hfit : (b.post m e).outstanding service < UInt64.size)
    (hle : l.count m service ≤ b.outstanding service) :
    (l.post e).count m service ≤ (b.post m e).outstanding service := by
  cases h.movement e with
  | none hcount hsum => rwa [hcount, hsum]
  | schedule hcount hsum =>
    rw [hsum] at hfit ⊢
    rw [hcount, Nat.mod_eq_of_lt (by omega)]
    omega
  | complete ha hservice hcount hsum =>
    have hshare : _ ≤ b.outstanding service := Book.share_le_outstanding ha
    rw [Account.share_of_eq hservice] at hshare
    omega

/-- It stays equal to it while completions find enough outstanding. -/
theorem count_post_eq (h : Mirrors m service l b) (e : Entry)
    (hfit : (b.post m e).outstanding service < UInt64.size) (hcovers : b.Covers m service e)
    (heq : l.count m service = b.outstanding service) :
    (l.post e).count m service = (b.post m e).outstanding service := by
  cases h.movement e with
  | none hcount hsum => rw [hcount, hsum, heq]
  | schedule hcount hsum =>
    rw [hsum] at hfit ⊢
    rw [hcount, heq, Nat.mod_eq_of_lt hfit]
  | complete ha hservice hcount hsum =>
    have henough := hcovers _ ha hservice
    omega

end Mirrors

/-! ## Runs -/

section Run

variable {entries : List Entry}

theorem postAll_concat (entries : List Entry) (e : Entry) :
    ({} : Ledger).postAll (entries ++ [e]) = (({} : Ledger).postAll entries).post e := by
  simp [postAll]

theorem count_empty : ({} : Ledger).count m service = 0 := by cases m <;> rfl

/-- While what is outstanding on the sessions of a service fits a word, the ledger of a run
is in step with the book, and the service counts no more than that. -/
theorem mirrors_postAll (hfit : Book.Fits m service entries) :
    Mirrors m service (({} : Ledger).postAll entries) (Book.ofEntries m entries) ∧
      (({} : Ledger).postAll entries).count m service ≤
        (Book.ofEntries m entries).outstanding service := by
  induction entries using List.reverseRecOn with
  | nil => exact ⟨.empty, Nat.le_of_eq count_empty⟩
  | append_singleton earlier e ih =>
    obtain ⟨hmirrors, hle⟩ := ih hfit.init
    have hlast := hfit.last
    rw [postAll_concat, Book.ofEntries_concat]
    exact ⟨hmirrors.post e hlast, hmirrors.count_post_le e hlast hle⟩

/-- While completions find enough outstanding, the service counts exactly that, and the
accounts balance. -/
theorem exact_postAll (hfit : Book.Fits m service entries)
    (hcovered : Book.Covered m service entries) :
    (({} : Ledger).postAll entries).count m service =
        (Book.ofEntries m entries).outstanding service ∧
      (Book.ofEntries m entries).Balanced service := by
  induction entries using List.reverseRecOn with
  | nil => exact ⟨count_empty, fun a ha => absurd ha List.not_mem_nil⟩
  | append_singleton earlier e ih =>
    obtain ⟨heq, hbalanced⟩ := ih hfit.init hcovered.init
    obtain ⟨hmirrors, -⟩ := mirrors_postAll hfit.init
    have hcovers := hcovered.last
    rw [postAll_concat, Book.ofEntries_concat]
    exact ⟨hmirrors.count_post_eq e hfit.last hcovers heq, hbalanced.post hcovers⟩

end Run

/-- Let what is outstanding on the sessions of a service fit a word at every point of a run
of entries. Then the service counts no more than its sessions do together, so it is at zero
when they all are, and each session counts what is outstanding on it. While each completion
finds enough outstanding, the service counts exactly what its sessions do, and each session
what was scheduled on it less what was completed. -/
theorem service_counts_sessions (m : Measure) (service : Nat) (entries : List Entry)
    (hfit : Book.Fits m service entries) :
    let l := ({} : Ledger).postAll entries
    let b := Book.ofEntries m entries
    l.count m service ≤ l.total m service ∧
      ((∀ x ∈ l.sessions, x.service = service → x.load.get m = 0) → l.count m service = 0) ∧
      (∀ (i : Nat) (x : Session), l.sessions[i]? = some x → x.service = service →
        ∃ a, b.accounts[i]? = some a ∧ (x.load.get m).toNat = a.outstanding) ∧
      (Book.Covered m service entries →
        l.count m service = l.total m service ∧
        ∀ (i : Nat) (x : Session), l.sessions[i]? = some x → x.service = service →
          ∃ a, b.accounts[i]? = some a ∧ (x.load.get m).toNat + a.completed = a.scheduled) := by
  intro l b
  obtain ⟨hmirrors, hle⟩ : Mirrors m service l b ∧ _ := mirrors_postAll hfit
  have hle : l.count m service ≤ l.total m service := by
    rw [hmirrors.total_eq]
    exact hle
  have hsessions : ∀ (i : Nat) (x : Session), l.sessions[i]? = some x → x.service = service →
      ∃ a, b.accounts[i]? = some a ∧ a.service = service ∧
        (x.load.get m).toNat = a.outstanding := by
    intro i x hx hmine
    obtain ⟨a, ha, hservice, -, hshare⟩ := hmirrors.account hx
    rw [Account.share_of_eq (hservice.trans hmine), share_of_eq hmine] at hshare
    exact ⟨a, ha, hservice.trans hmine, hshare.symm⟩
  refine ⟨hle, fun hzero => ?_, fun i x hx hmine => ?_, fun hcovered => ?_⟩
  · have htotal : l.total m service = 0 := by
      apply List.sum_eq_zero
      intro n hn
      obtain ⟨x, hx, rfl⟩ := List.mem_map.mp hn
      by_cases hmine : x.service = service
      · rw [share_of_eq hmine, hzero x hx hmine]
        rfl
      · exact share_of_ne hmine
    omega
  · obtain ⟨a, ha, -, hcount⟩ := hsessions i x hx hmine
    exact ⟨a, ha, hcount⟩
  · obtain ⟨heq, hbalanced⟩ := exact_postAll hfit hcovered
    refine ⟨heq.trans hmirrors.total_eq.symm, fun i x hx hmine => ?_⟩
    obtain ⟨a, ha, hservice, hcount⟩ := hsessions i x hx hmine
    have hbalance := hbalanced a (List.mem_of_getElem? ha) hservice
    exact ⟨a, ha, by omega⟩

/-- Two sessions with thirty bytes outstanding. -/
def thirtyBytes : List Entry :=
  [.openService, .openSession 0, .openSession 0, .schedule 0 10, .schedule 1 20]

/-- The service counts what its sessions do after a completion that finds enough outstanding,
and less after one that does not. -/
theorem service_counts_sessions_thirtyBytes :
    let exact := ({} : Ledger).postAll (thirtyBytes ++ [.complete 1 5])
    let short := ({} : Ledger).postAll (thirtyBytes ++ [.complete 0 25])
    (exact.count .bytes 0 = 25 ∧ exact.count .bytes 0 = exact.total .bytes 0) ∧
      (short.count .bytes 0 = 5 ∧ short.total .bytes 0 = 20 ∧
        short.count .bytes 0 ≤ short.total .bytes 0) := by
  intro exact short
  have hexact := service_counts_sessions .bytes 0 (thirtyBytes ++ [.complete 1 5]) (by decide)
  have hshort := service_counts_sessions .bytes 0 (thirtyBytes ++ [.complete 0 25]) (by decide)
  exact ⟨⟨by decide, (hexact.2.2.2 (by decide)).1⟩, by decide, by decide, hshort.1⟩

end Ledger

end Backpressure
