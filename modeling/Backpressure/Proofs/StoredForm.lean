import Backpressure.Proofs.Choices
import Backpressure.Proofs.Registers
set_option autoImplicit false

/-!
# Settings and their stored form

Settings are brought into a form in which the registers can hold them: a negative limit becomes
`0`, and a duration is cut at `2 ^ 64 - 2` nanoseconds, one below the word that stands for no
bound. What is read back are the settings in that form, and storing them again changes nothing
more.

Every configuration that changes lead to is the stored form of some settings. So nothing is lost
when it is written out as settings and stored again, and a stored limit is always a signed word.
-/

namespace Backpressure

/-- The longest duration that can be stored and is not longer than a given one. -/
def Duration.storable (d : Duration) : Duration :=
  ⟨min d.nanos 0xFFFF_FFFF_FFFF_FFFE, Nat.lt_of_le_of_lt (Nat.min_le_left _ _) d.bounded⟩

/-- The settings in the form in which they can be stored. -/
def Settings.storable (s : Settings) : Settings where
  policy := s.policy
  limits := s.limits.map fun value => if value < 0 then 0 else value
  logInterval := s.logInterval.storable
  blockTimeout := s.blockTimeout.map Duration.storable

/-! ## Limits -/

theorem storedLimit_of_neg {value : Int64} (h : value < 0) : storedLimit value = 0 := by
  have hneg : value.toInt < 0 := Int64.lt_iff_toInt_lt.mp h
  have hnat := toNat_storedLimit value
  apply UInt64.toNat.inj
  rw [UInt64.toNat_zero]
  omega

/-- A limit that was chosen is a signed word, so what is stored of it is one. -/
theorem toNat_storedLimit_le (value : Int64) :
    (storedLimit value).toNat ≤ 0x7FFF_FFFF_FFFF_FFFF := by
  have hnat := toNat_storedLimit value
  have hword := value.toInt_lt
  omega

theorem signedLimit_storedLimit (value : Int64) :
    signedLimit (storedLimit value) = if value < 0 then 0 else value := by
  apply Int64.toInt_inj.mp
  rw [toInt_signedLimit (Nat.lt_succ_of_le (toNat_storedLimit_le value)), toNat_storedLimit]
  split
  · rename_i hneg
    exact Int.max_eq_right (Int.le_of_lt (Int64.lt_iff_toInt_lt.mp hneg))
  · rename_i hpos
    exact Int.max_eq_left (Int64.le_iff_toInt_le.mp (Int64.not_lt.mp hpos))

/-! ## Durations -/

namespace Duration

variable (d : Duration)

theorem ofWord_word : ofWord d.word = d.storable := ext (toNat_word d)

theorem word_storable : d.storable.word = d.word := by
  apply UInt64.toNat.inj
  rw [toNat_word, toNat_word]
  exact Nat.min_eq_left (Nat.min_le_right _ _)

theorem storable_eq_iff : d.storable = d ↔ d.nanos ≤ 0xFFFF_FFFF_FFFF_FFFE := by
  rw [Duration.ext_iff]
  exact ⟨fun h => Nat.le_trans (Nat.le_of_eq h.symm) (Nat.min_le_right _ _), Nat.min_eq_left⟩

end Duration

/-! ## Settings -/

theorem Settings.storable_eq_iff (s : Settings) :
    s.storable = s ↔
      (∀ d, 0 ≤ s.limits.get d) ∧ s.logInterval.nanos ≤ 0xFFFF_FFFF_FFFF_FFFE ∧
        ∀ t, s.blockTimeout = some t → t.nanos ≤ 0xFFFF_FFFF_FFFF_FFFE := by
  have hlimits : (s.limits.map fun value => if value < 0 then 0 else value) = s.limits ↔
      ∀ d, 0 ≤ s.limits.get d := by
    rw [Figures.ext_get_iff]
    refine forall_congr' fun d => ?_
    rw [Figures.get_map, ite_eq_right_iff, ← Int64.not_lt]
    exact ⟨fun h hneg => Int64.ne_of_lt hneg (h hneg).symm, fun h hneg => absurd hneg h⟩
  have htimeout : s.blockTimeout.map Duration.storable = s.blockTimeout ↔
      ∀ t, s.blockTimeout = some t → t.nanos ≤ 0xFFFF_FFFF_FFFF_FFFE := by
    cases s.blockTimeout with
    | none => simp
    | some t => simp [Duration.storable_eq_iff]
  rw [← hlimits, ← Duration.storable_eq_iff, ← htimeout]
  cases s
  simp [storable]

namespace Config

/-- What is read back of stored settings. -/
theorem toSettings_ofSettings (s : Settings) : (ofSettings s).toSettings = s.storable := by
  have hpolicy : (ofSettings s).policy = s.policy := policy_setPolicy {} s.policy
  have hlimits : (ofSettings s).limits.map signedLimit =
      s.limits.map fun value => if value < 0 then 0 else value := by
    refine Figures.ext_get fun d => ?_
    rw [ofSettings_eq, Figures.get_map, Figures.get_map, Figures.get_map, signedLimit_storedLimit]
  have hinterval : (ofSettings s).logInterval = s.logInterval.storable := s.logInterval.ofWord_word
  have htimeout : (ofSettings s).blockTimeout = s.blockTimeout.map Duration.storable :=
    (blockTimeout_setBlockTimeout {} s.blockTimeout).trans
      (Option.map_congr fun d _ => d.ofWord_word)
  rw [toSettings, hpolicy, hlimits, hinterval, htimeout]
  rfl

/-- Settings and their storable form are stored alike. -/
theorem ofSettings_storable (s : Settings) : ofSettings s.storable = ofSettings s := by
  have hlimits : s.storable.limits.map storedLimit = s.limits.map storedLimit := by
    refine Figures.ext_get fun d => ?_
    rw [Figures.get_map, Figures.get_map, Settings.storable, Figures.get_map]
    split
    · rename_i hneg
      exact (storedLimit_of_neg hneg).symm
    · rfl
  have htimeout : s.storable.blockTimeout.map Duration.word = s.blockTimeout.map Duration.word := by
    rw [Settings.storable, Option.map_map]
    exact Option.map_congr fun d _ => d.word_storable
  rw [ofSettings_eq, ofSettings_eq, hlimits, htimeout, Settings.storable, Duration.word_storable]

/-- Storing what is read back changes nothing more. -/
theorem ofSettings_toSettings (s : Settings) :
    ofSettings (ofSettings s).toSettings = ofSettings s := by
  rw [toSettings_ofSettings, ofSettings_storable]

/-! ## Configurations -/

/-- A change of stored settings leaves stored settings. -/
theorem exists_ofSettings_update (s : Settings) (ch : Change) :
    ∃ t, (ofSettings s).update ch = ofSettings t := by
  cases ch with
  | policy p => exact ⟨_, updateAll_changes s (.policy p)⟩
  | policyIfGiven p =>
    cases p with
    | none => exact ⟨s, rfl⟩
    | some p => exact ⟨_, updateAll_changes s (.policy p)⟩
  | policyNamed text =>
    cases hparse : Policy.parse text with
    | error e => exact ⟨s, update_policyNamed_of_error _ hparse⟩
    | ok p =>
      rw [update_policyNamed_of_ok _ hparse]
      exact ⟨_, updateAll_changes s (.policy p)⟩
  | limit d value => exact ⟨_, updateAll_changes s (.limit d value)⟩
  | logInterval interval => exact ⟨_, updateAll_changes s (.logInterval interval)⟩
  | blockTimeout timeout => exact ⟨_, updateAll_changes s (.blockTimeout timeout)⟩
  | settings t => exact ⟨t, setAll_eq_ofSettings _ t⟩

/-- Every configuration that changes lead to is the stored form of some settings. -/
theorem exists_ofSettings_updateAll (s : Settings) (changes : List Change) :
    ∃ t, (ofSettings s).updateAll changes = ofSettings t := by
  induction changes generalizing s with
  | nil => exact ⟨s, rfl⟩
  | cons ch rest ih =>
    obtain ⟨t, ht⟩ := exists_ofSettings_update s ch
    rw [updateAll_cons, ht]
    exact ih t

theorem blockTimeout_setBlockTimeout_eq_none_iff (c : Config) (timeout : Option Duration) :
    (c.setBlockTimeout timeout).blockTimeout = none ↔ timeout = none := by
  rw [blockTimeout_setBlockTimeout, Option.map_eq_none_iff]

theorem blockTimeout_ofSettings_eq_none_iff (s : Settings) :
    (ofSettings s).blockTimeout = none ↔ s.blockTimeout = none :=
  blockTimeout_setBlockTimeout_eq_none_iff {} s.blockTimeout

/-- Stored settings are read back in their storable form: unchanged exactly if no limit is
negative and no duration is beyond `2 ^ 64 - 2` nanoseconds, and unchanged from then on. A
configuration that changes lead to is the same when it is written out as settings and stored
again; none of its limits is beyond the largest signed word, so none is cut. A bound, however
long, is read back as a bound, and none as none. -/
theorem stored_settings_read_back (s : Settings) (changes : List Change) :
    let c := (ofSettings s).updateAll changes
    (ofSettings s).toSettings = s.storable ∧
      ((ofSettings s).toSettings = s ↔
        (∀ d, 0 ≤ s.limits.get d) ∧ s.logInterval.nanos ≤ 0xFFFF_FFFF_FFFF_FFFE ∧
          ∀ t, s.blockTimeout = some t → t.nanos ≤ 0xFFFF_FFFF_FFFF_FFFE) ∧
      (ofSettings (ofSettings s).toSettings).toSettings = (ofSettings s).toSettings ∧
      ofSettings c.toSettings = c ∧
      (∀ d, (c.limits.get d).toNat ≤ 0x7FFF_FFFF_FFFF_FFFF ∧
        (signedLimit (c.limits.get d)).toInt = ((c.limits.get d).toNat : Int)) ∧
      ((ofSettings s).blockTimeout = none ↔ s.blockTimeout = none) ∧
      (∀ t, (c.update (.settings t)).blockTimeout = none ↔ t.blockTimeout = none) ∧
      ∀ timeout, (c.update (.blockTimeout timeout)).blockTimeout = none ↔ timeout = none := by
  intro c
  obtain ⟨t, ht⟩ : ∃ t, c = ofSettings t := exists_ofSettings_updateAll s changes
  refine ⟨toSettings_ofSettings s, ?_, ?_, ?_, ?_, blockTimeout_ofSettings_eq_none_iff s, ?_,
    blockTimeout_setBlockTimeout_eq_none_iff c⟩
  · rw [toSettings_ofSettings]
    exact s.storable_eq_iff
  · rw [ofSettings_toSettings]
  · rw [ht]
    exact ofSettings_toSettings t
  · intro d
    have hle : (c.limits.get d).toNat ≤ 0x7FFF_FFFF_FFFF_FFFF := by
      rw [ht, ofSettings_eq, Figures.get_map]
      exact toNat_storedLimit_le _
    exact ⟨hle, toInt_signedLimit (Nat.lt_succ_of_le hle)⟩
  · intro t
    have hall : c.update (.settings t) = ofSettings t := setAll_eq_ofSettings c t
    rw [hall]
    exact blockTimeout_ofSettings_eq_none_iff t

end Config

end Backpressure
