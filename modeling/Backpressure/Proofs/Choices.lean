import Backpressure.Pipeline.Run
set_option autoImplicit false

/-!
# Choosing settings and changing a running throttle

Settings are chosen one by one before a throttle starts, and its configuration is changed
one by one while it runs. Both ways lead to the same configuration: storing settings
commutes with each choice, so it makes no difference whether the values are brought into
their stored form at every step or once at the end. A throttle that starts with chosen
settings and a default one that is changed at once are then the same in all that follows.
-/

namespace Backpressure

namespace Config

/-! ## One choice -/

/-- Storing limits commutes with choosing one of them. -/
theorem map_storedLimit_set (limits : Figures Int64) (d : Dimension) (value : Int64) :
    (limits.set d value).map storedLimit = (limits.map storedLimit).set d (storedLimit value) := by
  cases d <;> rfl

/-- What the registers hold once settings are stored. -/
theorem ofSettings_eq (s : Settings) :
    ofSettings s =
      { policyCode := s.policy.code
        limits := s.limits.map storedLimit
        logIntervalWord := s.logInterval.word
        blockTimeoutWord := (s.blockTimeout.map Duration.word).getD noBound
        isSome_policy := by rw [Policy.ofCode?_code]; rfl } := rfl

/-- The changes that a choice stands for make of stored settings the stored form of the
settings with that choice. -/
theorem updateAll_changes (s : Settings) (ch : Settings.Choice) :
    (ofSettings s).updateAll ch.changes = ofSettings (s.choose ch) := by
  rw [ofSettings_eq, ofSettings_eq]
  cases ch with
  | limit d value =>
    have hlimits : (s.choose (.limit d value)).limits.map storedLimit =
        (s.limits.map storedLimit).set d (storedLimit value) := map_storedLimit_set s.limits d value
    rw [hlimits]
    rfl
  | policy _ | limits _ | logInterval _ | blockTimeout _ => rfl

/-- A choice stands for changes none of which is rejected. -/
theorem change_of_mem_changes {ch : Settings.Choice} {change : Change} (h : change ∈ ch.changes)
    (c : Config) : c.change change = .ok (c.update change) := by
  cases ch with
  | limits values =>
    obtain ⟨d, -, rfl⟩ := List.mem_map.mp h
    rfl
  | policy _ | limit _ _ | logInterval _ | blockTimeout _ =>
    cases List.mem_singleton.mp h
    rfl

/-! ## Many choices -/

theorem updateAll_append (c : Config) (earlier later : List Change) :
    c.updateAll (earlier ++ later) = (c.updateAll earlier).updateAll later := List.foldl_append

/-- Changing stored settings choice by choice comes to the same as choosing first and storing
what comes of it. -/
theorem updateAll_flatMap_changes (s : Settings) (choices : List Settings.Choice) :
    (ofSettings s).updateAll (choices.flatMap Settings.Choice.changes) =
      ofSettings (s.chooseAll choices) := by
  induction choices generalizing s with
  | nil => rfl
  | cons ch rest ih =>
    rw [List.flatMap_cons, updateAll_append, updateAll_changes, ih, Settings.chooseAll_cons]

end Config

namespace Pipeline.Course

/-- A run that only changes the configuration changes nothing but the configuration. -/
theorem run_configure (c : Course) (changes : List Config.Change) :
    c.run (changes.map .configure) =
      c.withThrottle
        { c.world.throttle with config := c.world.throttle.config.updateAll changes } := by
  induction changes generalizing c with
  | nil => rfl
  | cons ch rest ih =>
    rw [List.map_cons, run_cons, ih]
    rfl

/-- Settings that are chosen on top of the defaults, stored once, are the configuration of a
default throttle after the changes that the choices stand for, none of which is rejected. So a
session looks the same under both, and a throttle that starts with the settings and a default
one that is changed first go through any later actions alike, in everything that happens. -/
theorem chosen_settings_run_like_changes (choices : List Settings.Choice) :
    let chosen := ({} : Settings).chooseAll choices
    let changes := choices.flatMap Settings.Choice.changes
    Config.ofSettings chosen = (Config.ofSettings {}).updateAll changes ∧
      (∀ ch ∈ changes, ∀ c : Config, c.change ch = .ok (c.update ch)) ∧
      (∀ v : View, Readiness.examine (Config.ofSettings chosen).limits v =
        Readiness.examine ((Config.ofSettings {}).updateAll changes).limits v) ∧
      ∀ actions, (start {}).run (changes.map .configure ++ actions) = (start chosen).run actions := by
  intro chosen changes
  have hconfig : (Config.ofSettings {}).updateAll changes = Config.ofSettings chosen :=
    Config.updateAll_flatMap_changes {} choices
  refine ⟨hconfig.symm, ?_, ?_, ?_⟩
  · intro ch hch c
    obtain ⟨choice, -, hmem⟩ := List.mem_flatMap.mp hch
    exact Config.change_of_mem_changes hmem c
  · intro v
    rw [hconfig]
  · intro actions
    have hstart : (start {}).run (changes.map .configure) = start chosen := by
      rw [run_configure]
      exact congrArg (fun config => (start {}).withThrottle { config := config }) hconfig
    rw [run_append, hstart]

end Pipeline.Course

end Backpressure
