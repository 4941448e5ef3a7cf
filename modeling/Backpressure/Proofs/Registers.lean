import Backpressure.Config
set_option autoImplicit false

/-!
# The registers of the live configuration

The live configuration is seven registers that know nothing of each other. A change
writes to one of them, to all of them, or, if it is rejected, to none. Whatever changes
are made and in whatever order, each register shows the last value that was written to
it, in the form in which it can be stored: a negative limit as no limit, and a duration
cut below the word that stands for no bound.
-/

namespace Backpressure

/-! ## Stored values -/

/-- A limit is stored as it is, a negative one as `0`. -/
theorem toNat_storedLimit (value : Int64) :
    ((storedLimit value).toNat : Int) = max value.toInt 0 := by
  have hlt := value.toInt_lt
  have hfits : value.toInt.toNat < UInt64.size := by
    unfold UInt64.size
    omega
  rw [storedLimit, UInt64.toNat_ofNat_of_lt' hfits]
  omega

/-- A stored limit is shown as it is, unless it is beyond the largest signed word. -/
theorem toInt_signedLimit {stored : UInt64} (h : stored.toNat < 0x8000_0000_0000_0000) :
    (signedLimit stored).toInt = (stored.toNat : Int) := by
  have hmin : min stored.toNat 0x7FFF_FFFF_FFFF_FFFF = stored.toNat := by omega
  rw [signedLimit, hmin]
  exact Int64.toInt_ofInt_of_le (by omega) (by omega)

theorem toNat_word (d : Duration) : d.word.toNat = min d.nanos 0xFFFF_FFFF_FFFF_FFFE := by
  have hfits : min d.nanos 0xFFFF_FFFF_FFFF_FFFE < UInt64.size := by
    unfold UInt64.size
    omega
  rw [Duration.word, UInt64.toNat_ofNat_of_lt' hfits]

/-- No duration is mistaken for the absence of a bound. -/
theorem word_ne_noBound (d : Duration) : d.word ≠ noBound := by
  intro heq
  have hnat : d.word.toNat = 0xFFFF_FFFF_FFFF_FFFF := by
    rw [heq]
    rfl
  rw [toNat_word] at hnat
  omega

/-! ## Registers -/

/-- A register of the live configuration. -/
inductive Register where
  | policy
  | limit (d : Dimension)
  | logInterval
  | blockTimeout
  deriving DecidableEq, Repr

namespace Register

/-- What is written to a register. -/
abbrev Value : Register → Type
  | policy => Policy
  | limit _ => Int64
  | logInterval => Duration
  | blockTimeout => Option Duration

/-- What a register shows: a limit as a number, a duration as nanoseconds. -/
abbrev Shown : Register → Type
  | policy => Policy
  | limit _ => Int
  | logInterval => Nat
  | blockTimeout => Option Nat

/-- What a register shows of a value that was written to it. -/
def normal : (r : Register) → r.Value → r.Shown
  | policy, p => p
  | limit _, value => max value.toInt 0
  | logInterval, interval => min interval.nanos 0xFFFF_FFFF_FFFF_FFFE
  | blockTimeout, timeout => timeout.map fun d => min d.nanos 0xFFFF_FFFF_FFFF_FFFE

/-- The value that settings have for a register. -/
def chosen : (r : Register) → Settings → r.Value
  | policy, s => s.policy
  | limit d, s => s.limits.get d
  | logInterval, s => s.logInterval
  | blockTimeout, s => s.blockTimeout

/-- What a register shows. -/
def read : (r : Register) → Config → r.Shown
  | policy, c => c.policy
  | limit d, c => ((c.limits.get d).toNat : Int)
  | logInterval, c => c.logInterval.nanos
  | blockTimeout, c => c.blockTimeout.map Duration.nanos

/-- The value that a change writes to a register, if it writes to it and succeeds. -/
def written : (r : Register) → Config.Change → Option r.Value
  | policy, .policy p => some p
  | policy, .policyIfGiven p => p
  | policy, .policyNamed text => (Policy.parse text).toOption
  | limit d, .limit e value => if e = d then some value else none
  | logInterval, .logInterval interval => some interval
  | blockTimeout, .blockTimeout timeout => some timeout
  | r, .settings s => some (r.chosen s)
  | _, _ => none

end Register

namespace Config

variable (c : Config) (r : Register)

/-! ## One change -/

theorem update_policyNamed_of_error {text : String} {e : PolicyFault}
    (h : Policy.parse text = .error e) : c.update (.policyNamed text) = c :=
  update_of_error (e := e) (by rw [change, h])

theorem update_policyNamed_of_ok {text : String} {p : Policy} (h : Policy.parse text = .ok p) :
    c.update (.policyNamed text) = c.setPolicy p := by
  have hchange : c.change (.policyNamed text) = .ok (c.setPolicy p) := by rw [change, h]
  rw [update, hchange]

/-- Settings replace everything, whatever was stored before. -/
theorem setAll_eq_ofSettings (s : Settings) : c.setAll s = ofSettings s := rfl

/-- A bound is stored as a word that is not `noBound`, so it is read back as a bound. -/
theorem blockTimeout_setBlockTimeout (timeout : Option Duration) :
    (c.setBlockTimeout timeout).blockTimeout =
      timeout.map fun d => Duration.ofWord d.word := by
  unfold blockTimeout setBlockTimeout
  cases timeout with
  | none => exact if_pos rfl
  | some d => exact if_neg (word_ne_noBound d)

theorem nanos_setBlockTimeout (timeout : Option Duration) :
    (c.setBlockTimeout timeout).blockTimeout.map Duration.nanos =
      timeout.map fun d => min d.nanos 0xFFFF_FFFF_FFFF_FFFE := by
  rw [blockTimeout_setBlockTimeout, Option.map_map]
  refine Option.map_congr fun d _ => ?_
  exact toNat_word d

theorem limit_setLimit (d e : Dimension) (value : Int64) :
    (((c.setLimit d value).limits.get e).toNat : Int) =
      if d = e then max value.toInt 0 else ((c.limits.get e).toNat : Int) := by
  unfold setLimit
  by_cases he : d = e
  · subst he
    rw [if_pos rfl, Figures.get_set_self, toNat_storedLimit]
  · rw [if_neg he, Figures.get_set_of_ne (Ne.symm he)]

/-- Settings write their value to every register. -/
theorem read_ofSettings (s : Settings) : r.read (ofSettings s) = r.normal (r.chosen s) := by
  cases r with
  | policy => exact policy_setPolicy {} s.policy
  | limit d =>
    have hlimit : (ofSettings s).limits.get d = storedLimit (s.limits.get d) :=
      Figures.get_map storedLimit s.limits d
    have hread : (Register.limit d).read (ofSettings s) =
        (((ofSettings s).limits.get d).toNat : Int) := rfl
    rw [hread, hlimit]
    exact toNat_storedLimit _
  | logInterval => exact toNat_word s.logInterval
  | blockTimeout => exact nanos_setBlockTimeout {} s.blockTimeout

/-- After a change a register shows what the change wrote to it, or what it showed
before. -/
theorem read_update (ch : Change) :
    r.read (c.update ch) = ((r.written ch).map r.normal).getD (r.read c) := by
  have hpolicy : ∀ p, r.read (c.setPolicy p) =
      ((r.written (.policy p)).map r.normal).getD (r.read c) := by
    intro p
    cases r with
    | policy => exact policy_setPolicy c p
    | limit _ | logInterval | blockTimeout => rfl
  cases ch with
  | policy p => exact hpolicy p
  | policyIfGiven p =>
    cases p with
    | none => cases r <;> rfl
    | some p =>
      refine (hpolicy p).trans ?_
      cases r <;> rfl
  | policyNamed text =>
    cases hparse : Policy.parse text with
    | error e =>
      rw [update_policyNamed_of_error c hparse]
      cases r <;> simp [Register.written, hparse, Except.toOption]
    | ok p =>
      rw [update_policyNamed_of_ok c hparse, hpolicy]
      cases r <;> simp [Register.written, hparse, Except.toOption]
  | limit d value =>
    cases r with
    | limit e =>
      have hwritten : (Register.limit e).written (.limit d value) =
          if d = e then some value else none := rfl
      refine (limit_setLimit c d e value).trans ?_
      rw [hwritten]
      split <;> rfl
    | policy | logInterval | blockTimeout => rfl
  | logInterval interval =>
    cases r with
    | logInterval => exact toNat_word interval
    | policy | limit _ | blockTimeout => rfl
  | blockTimeout timeout =>
    cases r with
    | blockTimeout => exact nanos_setBlockTimeout c timeout
    | policy | limit _ | logInterval => rfl
  | settings s =>
    have hall : c.update (.settings s) = ofSettings s := setAll_eq_ofSettings c s
    rw [hall, read_ofSettings]
    cases r <;> rfl

/-- A change other than whole settings writes to one register at most. -/
theorem eq_of_written {ch : Change} {q r : Register} (hch : ∀ s, ch ≠ .settings s)
    (hq : q.written ch ≠ none) (hr : r.written ch ≠ none) : q = r := by
  cases ch with
  | settings s => exact absurd rfl (hch s)
  | limit d value =>
    have hlimit : ∀ x : Register, x.written (.limit d value) ≠ none → x = .limit d := by
      intro x hx
      cases x with
      | limit e =>
        by_cases he : d = e
        · rw [he]
        · exact absurd (if_neg he) hx
      | policy | logInterval | blockTimeout => exact absurd rfl hx
    rw [hlimit q hq, hlimit r hr]
  | policy _ | policyIfGiven _ | policyNamed _ | logInterval _ | blockTimeout _ =>
    cases q <;> cases r <;> first | rfl | exact absurd rfl hq | exact absurd rfl hr

/-! ## Rejected changes -/

/-- A change is rejected if it gives no policy or names none. -/
theorem change_eq_error_iff (ch : Change) :
    (∃ e, c.change ch = .error e) ↔
      ch = .policyIfGiven none ∨
        ∃ text e, ch = .policyNamed text ∧ Policy.parse text = .error e := by
  cases ch with
  | policyIfGiven p => cases p <;> simp [change]
  | policyNamed text => cases hparse : Policy.parse text <;> simp [change, hparse]
  | policy _ | limit _ _ | logInterval _ | blockTimeout _ | settings _ => simp [change]

theorem written_of_error {ch : Change} {e : PolicyFault} (h : c.change ch = .error e) :
    r.written ch = none := by
  rcases (change_eq_error_iff c ch).mp ⟨e, h⟩ with rfl | ⟨text, fault, rfl, hparse⟩
  · cases r <;> rfl
  · cases r <;> simp [Register.written, hparse, Except.toOption]

/-! ## Many changes -/

/-- After many changes a register shows the last value that was written to it. -/
theorem read_updateAll (changes : List Change) :
    r.read (c.updateAll changes) =
      ((changes.filterMap r.written).getLast?.map r.normal).getD (r.read c) := by
  induction changes generalizing c with
  | nil => rfl
  | cons ch rest ih =>
    rw [updateAll_cons, ih, read_update]
    cases hw : r.written ch with
    | none => rw [List.filterMap_cons_none hw, Option.map_none, Option.getD_none]
    | some v =>
      rw [List.filterMap_cons_some hw, List.getLast?_cons, Option.map_some, Option.map_some,
        Option.getD_some, Option.getD_some]
      cases (rest.filterMap r.written).getLast? <;> rfl

/-- After any changes each register shows the last value that was written to it by a change
that was not rejected, or else the one of the settings at the start. There is no bound if
the last one written was none, and the code of the policy is that of the policy which is
read. Only a change that gives no policy or names none is rejected, and it leaves the whole
configuration as it was. What a change does not write to stays as it was: all registers but
one, unless the change is whole settings, which leave nothing of what was stored. Shown as
settings, the limits are the same numbers. -/
theorem registers_keep_last_write (s : Settings) (changes : List Change) :
    let c := (ofSettings s).updateAll changes
    (∀ r : Register,
        r.read c = r.normal ((changes.filterMap r.written).getLast?.getD (r.chosen s))) ∧
      (c.blockTimeout = none ↔
        (changes.filterMap Register.blockTimeout.written).getLast?.getD s.blockTimeout = none) ∧
      Policy.ofCode? c.policyCode = some c.policy ∧
      (∀ ch, (∃ e, c.change ch = .error e) ↔
        ch = .policyIfGiven none ∨
          ∃ text e, ch = .policyNamed text ∧ Policy.parse text = .error e) ∧
      (∀ ch e, c.change ch = .error e →
        c.update ch = c ∧ ∀ r : Register, r.written ch = none) ∧
      (∀ ch (r : Register), r.written ch = none → r.read (c.update ch) = r.read c) ∧
      (∀ ch (q r : Register), (∀ t, ch ≠ .settings t) →
        q.written ch ≠ none → r.written ch ≠ none → q = r) ∧
      (∀ t, c.update (.settings t) = ofSettings t) ∧
      ∀ d, (c.toSettings.limits.get d).toInt = (Register.limit d).read c := by
  intro c
  have hread : ∀ r : Register,
      r.read c = r.normal ((changes.filterMap r.written).getLast?.getD (r.chosen s)) := by
    intro r
    rw [read_updateAll, read_ofSettings]
    cases (changes.filterMap r.written).getLast? <;> rfl
  refine ⟨hread, ?_, ofCode?_policyCode c, change_eq_error_iff c, ?_, ?_, ?_,
    setAll_eq_ofSettings c, ?_⟩
  · have hbound : c.blockTimeout.map Duration.nanos =
        ((changes.filterMap Register.blockTimeout.written).getLast?.getD s.blockTimeout).map
          fun d => min d.nanos 0xFFFF_FFFF_FFFF_FFFE := hread .blockTimeout
    rw [← Option.map_eq_none_iff (f := Duration.nanos), hbound, Option.map_eq_none_iff]
  · intro ch e hch
    exact ⟨update_of_error hch, fun r => written_of_error c r hch⟩
  · intro ch r hw
    rw [read_update, hw]
    rfl
  · intro ch q r hch hq hr
    exact eq_of_written hch hq hr
  · intro d
    -- a limit that was chosen is a signed word, so what is stored of it is one
    obtain ⟨value, hvalue⟩ : ∃ value : Int64,
        ((c.limits.get d).toNat : Int) = max value.toInt 0 := ⟨_, hread (.limit d)⟩
    have hword := value.toInt_lt
    have hlt : (c.limits.get d).toNat < 0x8000_0000_0000_0000 := by omega
    have hlimit : c.toSettings.limits.get d = signedLimit (c.limits.get d) :=
      Figures.get_map signedLimit c.limits d
    rw [hlimit, toInt_signedLimit hlt]
    rfl

/-- The longest bound is cut to a bound and not to none; a change without a policy does
nothing, and a negative limit is no limit. -/
example :
    let c := (ofSettings {}).updateAll
      [.blockTimeout (some .longest), .policyIfGiven none, .limit .globalBytes (-1)]
    Register.blockTimeout.read c = some 0xFFFF_FFFF_FFFF_FFFE ∧ Register.policy.read c = .log ∧
      (Register.limit .globalBytes).read c = 0 := by
  decide

end Config

end Backpressure
