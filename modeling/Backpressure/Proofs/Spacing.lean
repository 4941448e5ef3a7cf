import Backpressure.WarnGate
import Mathlib.Order.Bounds.Basic
set_option autoImplicit false

/-!
# Warnings apart

The gate is asked at any instants, which may repeat or go back, and under an interval that may
be another one each time. It admits a call exactly if strictly more than the interval of the
call lies behind each call that it admitted before, not only behind the last one. A refused
call is as if it had not been made.

At instants that do not go back and under one interval, the gate suppresses no more than it must:
however instants are chosen that lie strictly more than the interval apart, they are not more
than those at which the gate admits a call. The first one of a choice is never earlier than the
first one that is admitted, so whatever may follow upon the one may follow upon the other.
-/

namespace Backpressure

namespace WarnGate

/-- When a warning asks to pass, and the interval that it asks under. -/
abbrev Call := Instant × Duration

/-- Strictly more than the interval of a call lies between an earlier instant and the call. -/
def Clears (earlier : Instant) (call : Call) : Prop :=
  earlier < call.1 ∧ call.2.nanos < call.1 - earlier

instance (earlier : Instant) (call : Call) : Decidable (Clears earlier call) :=
  inferInstanceAs (Decidable (_ ∧ _))

/-- The calls of a sequence, each with its answer. -/
def told (g : WarnGate) (calls : List Call) : List (Call × Bool) := calls.zip (g.answers calls)

/-- The calls of a sequence that the gate admits. -/
def admitted (g : WarnGate) (calls : List Call) : List Call :=
  ((g.told calls).filter Prod.snd).map Prod.fst

variable {g : WarnGate} {call : Call} {calls : List Call}

/-! ## One call -/

theorem Clears.of_le {a b : Instant} (hb : Clears b call) (hab : a ≤ b) : Clears a call := by
  obtain ⟨hlt, hinterval⟩ := hb
  exact ⟨Nat.lt_of_le_of_lt hab hlt, Nat.lt_of_lt_of_le hinterval (Nat.sub_le_sub_left hab _)⟩

theorem clears_iff (earlier : Instant) : Clears earlier call ↔ earlier + call.2.nanos < call.1 := by
  constructor
  · rintro ⟨-, hinterval⟩
    exact Nat.add_lt_of_lt_sub' hinterval
  · intro hlt
    exact ⟨Nat.lt_of_le_of_lt (Nat.le_add_right _ _) hlt, Nat.lt_sub_iff_add_lt'.mpr hlt⟩

/-- The gate admits what clears the last instant that it remembers. -/
theorem admits_iff (call : Call) :
    g.admits call.1 call.2 = true ↔ ∀ last, g.last = some last → Clears last call := by
  unfold admits
  cases hlast : g.last with
  | none => simp
  | some last =>
    have hlater : call.2.nanos < call.1 - last → last < call.1 := fun h =>
      Nat.lt_of_sub_pos (Nat.zero_lt_of_lt h)
    simpa [Clears] using hlater

/-! ## Sequences of calls -/

section Told

variable (g call calls)

theorem told_cons :
    g.told (call :: calls) =
      (call, g.admits call.1 call.2) :: (g.ask call.1 call.2).1.told calls := by
  rw [told, ← ask_snd]
  rfl

theorem after_cons : g.after (call :: calls) = (g.ask call.1 call.2).1.after calls := rfl

@[simp] theorem map_fst_told : (g.told calls).map Prod.fst = calls :=
  List.map_fst_zip (by simp)

@[simp] theorem map_snd_told : (g.told calls).map Prod.snd = g.answers calls :=
  List.map_snd_zip (by simp)

@[simp] theorem length_told : (g.told calls).length = calls.length := by simp [told]

theorem told_append (later : List Call) :
    g.told (calls ++ later) = g.told calls ++ (g.after calls).told later := by
  induction calls generalizing g with
  | nil => rfl
  | cons call rest ih =>
    rw [List.cons_append, told_cons, told_cons, ih, after_cons, List.cons_append]

theorem count_answers : (g.answers calls).count true = (g.admitted calls).length := by
  rw [← map_snd_told, List.count, List.countP_map, admitted, List.length_map,
    ← List.countP_eq_length_filter]
  exact List.countP_congr fun call _ => by simp

end Told

/-- The calls of which something is told, in order. -/
theorem calls_of_told_eq {before after : List (Call × Bool)} {answer : Bool}
    (h : g.told calls = before ++ (call, answer) :: after) :
    calls = before.map Prod.fst ++ call :: after.map Prod.fst := by
  rw [← map_fst_told g calls, h, List.map_append, List.map_cons]

/-- What is told of a call depends on the calls before it alone. -/
theorem admits_of_told_eq {before after : List (Call × Bool)} {answer : Bool}
    (h : g.told calls = before ++ (call, answer) :: after) :
    g.told (before.map Prod.fst) = before ∧
      (g.after (before.map Prod.fst)).admits call.1 call.2 = answer := by
  rw [calls_of_told_eq h, told_append, told_cons] at h
  obtain ⟨hbefore, hrest⟩ := List.append_inj h (by simp)
  exact ⟨hbefore, congrArg Prod.snd (List.head_eq_of_cons_eq hrest)⟩

theorem mem_admitted : call ∈ g.admitted calls ↔ (call, true) ∈ g.told calls := by
  simp [admitted]

theorem admitted_cons_of_admits (h : g.admits call.1 call.2 = true) :
    g.admitted (call :: calls) = call :: admitted ⟨some call.1⟩ calls := by
  rw [admitted, told_cons, ask_of_admits h, h]
  rfl

theorem admitted_cons_of_not_admits (h : g.admits call.1 call.2 = false) :
    g.admitted (call :: calls) = g.admitted calls := by
  rw [admitted, told_cons, ask_of_not_admits h, h]
  rfl

/-! ## Spacing -/

/-- Every call that is admitted clears the instant that the gate remembers at the start. -/
theorem clears_of_mem_admitted {last : Instant} (hlast : g.last = some last)
    (h : call ∈ g.admitted calls) : Clears last call := by
  induction calls generalizing g last with
  | nil => exact absurd h List.not_mem_nil
  | cons first rest ih =>
    cases ha : g.admits first.1 first.2 with
    | false =>
      rw [admitted_cons_of_not_admits ha] at h
      exact ih hlast h
    | true =>
      have hfirst : Clears last first := (admits_iff first).mp ha last hlast
      rw [admitted_cons_of_admits ha] at h
      rcases List.mem_cons.mp h with rfl | hlater
      · exact hfirst
      · exact (ih rfl hlater).of_le (Nat.le_of_lt hfirst.1)

/-- Each call that is admitted clears all those that were admitted before it. -/
theorem pairwise_admitted (g : WarnGate) (calls : List Call) :
    (g.admitted calls).Pairwise fun earlier later => Clears earlier.1 later := by
  induction calls generalizing g with
  | nil => exact .nil
  | cons first rest ih =>
    cases ha : g.admits first.1 first.2 with
    | false =>
      rw [admitted_cons_of_not_admits ha]
      exact ih g
    | true =>
      rw [admitted_cons_of_admits ha]
      exact List.pairwise_cons.mpr ⟨fun later hlater => clears_of_mem_admitted rfl hlater, ih _⟩

/-- The gate remembers the last call that it admitted. -/
theorem last_after :
    (g.after calls).last = ((g.admitted calls).getLast?.map Prod.fst).or g.last := by
  induction calls generalizing g with
  | nil => rfl
  | cons first rest ih =>
    rw [after_cons, ih, ask_fst]
    cases ha : g.admits first.1 first.2 with
    | false =>
      rw [admitted_cons_of_not_admits ha]
      rfl
    | true =>
      rw [admitted_cons_of_admits ha, List.getLast?_cons, if_pos rfl]
      cases (admitted ⟨some first.1⟩ rest).getLast? <;> rfl

/-- A gate that was new before some calls admits exactly what clears all those it admitted. -/
theorem admits_after_iff :
    (({} : WarnGate).after calls).admits call.1 call.2 = true ↔
      ∀ earlier ∈ ({} : WarnGate).admitted calls, Clears earlier.1 call := by
  have hlast : (({} : WarnGate).after calls).last =
      (({} : WarnGate).admitted calls).getLast?.map Prod.fst := by
    rw [last_after, Option.or_none]
  rw [admits_iff, hlast]
  constructor
  · intro h earlier hmem
    obtain ⟨others, last, hall⟩ :
        ∃ others last, ({} : WarnGate).admitted calls = others ++ [last] :=
      ⟨_, _, (List.dropLast_concat_getLast (List.ne_nil_of_mem hmem)).symm⟩
    have hclears : Clears last.1 call := h last.1 (by rw [hall, List.getLast?_concat]; rfl)
    have hspaced := pairwise_admitted {} calls
    rw [hall] at hmem hspaced
    rcases List.mem_append.mp hmem with hother | hself
    · have hbefore : Clears earlier.1 last :=
        (List.pairwise_append.mp hspaced).2.2 earlier hother last List.mem_cons_self
      exact hclears.of_le (Nat.le_of_lt hbefore.1)
    · rw [List.mem_singleton.mp hself]
      exact hclears
  · intro h last hlast
    obtain ⟨latest, hlatest, rfl⟩ := Option.map_eq_some_iff.mp hlast
    exact h latest (List.mem_of_getLast? hlatest)

/-- The answer to a call says whether the call clears all those that were admitted before. -/
theorem answer_iff_clears {before after : List (Call × Bool)} {answer : Bool}
    (h : ({} : WarnGate).told calls = before ++ (call, answer) :: after) :
    answer = true ↔ ∀ earlier ∈ before, earlier.2 = true → Clears earlier.1.1 call := by
  obtain ⟨hbefore, hadmits⟩ := admits_of_told_eq h
  have hmem : ∀ earlier, earlier ∈ ({} : WarnGate).admitted (before.map Prod.fst) ↔
      (earlier, true) ∈ before := by
    intro earlier
    rw [mem_admitted, hbefore]
  rw [← hadmits, admits_after_iff]
  constructor
  · rintro hall ⟨earlier, admitted⟩ hearlier rfl
    exact hall earlier ((hmem earlier).mpr hearlier)
  · intro hall earlier hearlier
    exact hall (earlier, true) ((hmem earlier).mp hearlier) rfl

/-! ## Leaving out refused calls -/

/-- If refused calls are left out, the others are answered as before, and the gate is the same
in the end. -/
theorem told_kept {kept : List (Call × Bool)} (hsub : kept.Sublist (g.told calls))
    (hadmitted : kept.filter Prod.snd = (g.told calls).filter Prod.snd) :
    g.told (kept.map Prod.fst) = kept ∧ g.after (kept.map Prod.fst) = g.after calls := by
  induction calls generalizing g kept with
  | nil =>
    rw [List.sublist_nil.mp hsub]
    exact ⟨rfl, rfl⟩
  | cons first rest ih =>
    rw [told_cons] at hsub hadmitted
    rw [after_cons]
    rcases List.sublist_cons_iff.mp hsub with hdropped | ⟨others, rfl, hothers⟩
    · -- a call that is left out was refused, for one that was admitted would be missing
      have hrefused : g.admits first.1 first.2 = false := by
        by_contra hne
        rw [List.filter_cons_of_pos (by simpa using hne)] at hadmitted
        have hle := (hdropped.filter Prod.snd).length_le
        rw [hadmitted, List.length_cons] at hle
        omega
      rw [hrefused, List.filter_cons_of_neg (by simp)] at hadmitted
      rw [ask_of_not_admits hrefused] at hdropped hadmitted ⊢
      exact ih hdropped hadmitted
    · have hrest : others.filter Prod.snd =
          ((g.ask first.1 first.2).1.told rest).filter Prod.snd := by
        rw [List.filter_cons, List.filter_cons] at hadmitted
        split at hadmitted
        · exact List.tail_eq_of_cons_eq hadmitted
        · exact hadmitted
      obtain ⟨htold, hafter⟩ := ih hothers hrest
      rw [List.map_cons, told_cons, htold, after_cons]
      exact ⟨rfl, hafter⟩

/-- Every call of a new gate is answered, and it admits exactly those that clear each call that
it admitted before: so the first one, and of any two that it admits the later one clears the
earlier one, however many lie between them. Refused calls leave no trace: without any of them
the others are answered as before, and the gate is the same in the end. -/
theorem admitted_iff_clears_earlier (calls : List Call) :
    let told := ({} : WarnGate).told calls
    told.map Prod.fst = calls ∧
      (∀ first rest, told = first :: rest → first.2 = true) ∧
      (told.Pairwise fun earlier later =>
        earlier.2 = true → later.2 = true → Clears earlier.1.1 later.1) ∧
      (∀ before call answer after, told = before ++ (call, answer) :: after →
        (answer = true ↔ ∀ earlier ∈ before, earlier.2 = true → Clears earlier.1.1 call)) ∧
      ∀ kept, kept.Sublist told → kept.filter Prod.snd = told.filter Prod.snd →
        ({} : WarnGate).told (kept.map Prod.fst) = kept ∧
          ({} : WarnGate).after (kept.map Prod.fst) = ({} : WarnGate).after calls := by
  intro told
  refine ⟨map_fst_told _ calls, ?_, ?_, fun before call answer after => answer_iff_clears,
    fun kept => told_kept⟩
  · rintro ⟨call, answer⟩ rest h
    have hnone : told = [] ++ (call, answer) :: rest := h
    exact (answer_iff_clears hnone).mpr fun _ hmem => absurd hmem List.not_mem_nil
  · have hspaced := pairwise_admitted {} calls
    rw [admitted, List.pairwise_map, List.pairwise_filter] at hspaced
    exact hspaced

/-- Under an interval of nothing a later instant is still asked for, an earlier one is refused
under every interval, and what counts is the interval of the later call. -/
example :
    ({} : WarnGate).answers
        [(5, .zero), (5, .zero), (3, .zero), (6, .zero), (20, .ofNanos 14), (20, .ofNanos 13)] =
      [true, false, false, true, false, true] := by
  decide

/-! ## The most that can be admitted -/

/-- Calls at some instants, all under one interval. -/
def callsAt (interval : Duration) (instants : List Instant) : List Call :=
  instants.map (·, interval)

/-- How many calls a new gate admits at some instants under one interval. -/
def countAt (interval : Duration) (instants : List Instant) : Nat :=
  (({} : WarnGate).answers (callsAt interval instants)).count true

/-- Strictly more than an interval lies between two instants, whichever of them comes first. -/
def Apart (interval : Duration) (a b : Instant) : Prop :=
  a + interval.nanos < b ∨ b + interval.nanos < a

instance (interval : Duration) (a b : Instant) : Decidable (Apart interval a b) :=
  inferInstanceAs (Decidable (_ ∨ _))

variable {interval longer : Duration} {instants chosen : List Instant}

theorem callsAt_cons (now : Instant) :
    callsAt interval (now :: instants) = (now, interval) :: callsAt interval instants := rfl

theorem map_fst_callsAt : (callsAt interval instants).map Prod.fst = instants :=
  List.map_map.trans (List.map_id instants)

theorem interval_of_mem_callsAt (h : call ∈ callsAt interval instants) : call.2 = interval := by
  obtain ⟨now, -, rfl⟩ := List.mem_map.mp h
  rfl

theorem admitted_sublist (g : WarnGate) (calls : List Call) : (g.admitted calls).Sublist calls := by
  have hsub := (List.filter_sublist (p := Prod.snd) (l := g.told calls)).map Prod.fst
  rwa [map_fst_told] at hsub

/-- The instants of the admitted calls lie apart. -/
theorem apart_admitted :
    ((g.admitted (callsAt interval instants)).map Prod.fst).Pairwise (Apart interval) := by
  rw [List.pairwise_map]
  refine (pairwise_admitted g _).imp_of_mem ?_
  intro earlier later _ hlater hclears
  rw [clears_iff, interval_of_mem_callsAt ((admitted_sublist g _).subset hlater)] at hclears
  exact .inl hclears

/-- At instants that do not go back, no choice of instants that lie apart, and at which the gate
is open, has more members than the calls that it admits. -/
theorem length_le_admitted (hsorted : instants.Pairwise (· ≤ ·)) (hsub : chosen.Sublist instants)
    (hspaced : chosen.Pairwise fun a b => a + interval.nanos < b)
    (hopen : ∀ now ∈ chosen, g.admits now interval = true) :
    chosen.length ≤ (g.admitted (callsAt interval instants)).length := by
  induction instants generalizing g chosen with
  | nil =>
    rw [List.sublist_nil.mp hsub]
    exact Nat.zero_le _
  | cons now rest ih =>
    obtain ⟨hnow, hrest⟩ := List.pairwise_cons.mp hsorted
    rw [callsAt_cons]
    cases ha : g.admits now interval with
    | false =>
      rw [admitted_cons_of_not_admits ha]
      rcases List.sublist_cons_iff.mp hsub with hothers | ⟨others, rfl, -⟩
      · exact ih hrest hothers hspaced hopen
      · rw [hopen now List.mem_cons_self] at ha
        cases ha
    | true =>
      rw [admitted_cons_of_admits ha]
      cases chosen with
      | nil => exact Nat.zero_le _
      | cons first others =>
        -- the first one of the choice may be exchanged for `now`, which is not later
        have hle : now ≤ first := by
          rcases List.mem_cons.mp (hsub.subset List.mem_cons_self) with rfl | hmem
          · exact Nat.le_refl _
          · exact hnow first hmem
        obtain ⟨hfirst, hothers⟩ := List.pairwise_cons.mp hspaced
        refine Nat.succ_le_succ (ih hrest hsub.of_cons_cons hothers ?_)
        intro later hlater
        refine (admits_iff (later, interval)).mpr ?_
        rintro last ⟨⟩
        exact ((clears_iff first).mpr (hfirst later hlater)).of_le hle

/-- No choice of instants that lie apart has more members than the calls that are admitted. -/
theorem length_le_countAt (hsorted : instants.Pairwise (· ≤ ·)) (hsub : chosen.Sublist instants)
    (hapart : chosen.Pairwise (Apart interval)) : chosen.length ≤ countAt interval instants := by
  have hspaced : chosen.Pairwise fun a b => a + interval.nanos < b := by
    refine ((hsorted.sublist hsub).and hapart).imp ?_
    rintro a b ⟨hle, hlt | hlt⟩
    · exact hlt
    · exact absurd hle (Nat.not_le_of_lt (Nat.lt_of_le_of_lt (Nat.le_add_right _ _) hlt))
  rw [countAt, count_answers]
  exact length_le_admitted hsorted hsub hspaced fun _ _ => rfl

theorem Apart.of_le {a b : Instant} (h : Apart longer a b) (hle : interval.nanos ≤ longer.nanos) :
    Apart interval a b := by
  rcases h with hlt | hlt
  · exact .inl (Nat.lt_of_le_of_lt (Nat.add_le_add_left hle a) hlt)
  · exact .inr (Nat.lt_of_le_of_lt (Nat.add_le_add_left hle b) hlt)

/-- The admitted calls are made at a choice of instants that lie apart. -/
theorem exists_chosen (interval : Duration) (instants : List Instant) :
    ∃ chosen : List Instant, chosen.Sublist instants ∧ chosen.Pairwise (Apart interval) ∧
      chosen.length = countAt interval instants := by
  let calls := callsAt interval instants
  refine ⟨(({} : WarnGate).admitted calls).map Prod.fst, ?_, apart_admitted, ?_⟩
  · have hsub := (admitted_sublist {} calls).map Prod.fst
    rwa [map_fst_callsAt] at hsub
  · rw [countAt, count_answers, List.length_map]

/-- A call that is refused comes at most the interval after one that was admitted. -/
theorem exists_admitted_near {before after : List (Call × Bool)}
    (hsorted : instants.Pairwise (· ≤ ·))
    (h : ({} : WarnGate).told (callsAt interval instants) = before ++ (call, false) :: after) :
    ∃ earlier ∈ before, earlier.2 = true ∧ earlier.1.1 ≤ call.1 ∧
      call.1 - earlier.1.1 ≤ interval.nanos := by
  have hcalls := calls_of_told_eq h
  have hmade : call ∈ callsAt interval instants := by
    rw [hcalls]
    exact List.mem_append_right _ List.mem_cons_self
  have hinterval : call.2 = interval := interval_of_mem_callsAt hmade
  obtain ⟨earlier, hmem, hadmitted, hnot⟩ :
      ∃ earlier ∈ before, earlier.2 = true ∧ ¬ Clears earlier.1.1 call := by
    by_contra hnone
    refine absurd ((answer_iff_clears h).mpr fun earlier hmem hadmitted => ?_) Bool.false_ne_true
    by_contra hnot
    exact hnone ⟨earlier, hmem, hadmitted, hnot⟩
  have hle : earlier.1.1 ≤ call.1 := by
    have hcallsSorted : (callsAt interval instants).Pairwise fun a b => a.1 ≤ b.1 := by
      rwa [← List.pairwise_map, map_fst_callsAt]
    rw [hcalls] at hcallsSorted
    exact (List.pairwise_append.mp hcallsSorted).2.2 earlier.1 (List.mem_map_of_mem hmem) call
      List.mem_cons_self
  rw [clears_iff, hinterval] at hnot
  exact ⟨earlier, hmem, hadmitted, hle, Nat.sub_le_iff_le_add'.mpr (Nat.le_of_not_lt hnot)⟩

/-- At instants that do not go back, under one interval, a new gate admits as many calls as there
can be instants among them of which any two lie apart. Each call that it refuses comes at most
the interval after one that it admitted. Under a longer interval it admits no more. -/
theorem countAt_isGreatest (interval : Duration) {instants : List Instant}
    (hsorted : instants.Pairwise (· ≤ ·)) :
    IsGreatest
        {n | ∃ chosen : List Instant,
          chosen.Sublist instants ∧ chosen.Pairwise (Apart interval) ∧ chosen.length = n}
        (countAt interval instants) ∧
      (∀ before call after,
        ({} : WarnGate).told (callsAt interval instants) = before ++ (call, false) :: after →
        ∃ earlier ∈ before, earlier.2 = true ∧ earlier.1.1 ≤ call.1 ∧
          call.1 - earlier.1.1 ≤ interval.nanos) ∧
      ∀ longer : Duration, interval.nanos ≤ longer.nanos →
        countAt longer instants ≤ countAt interval instants := by
  refine ⟨⟨exists_chosen interval instants, ?_⟩,
    fun before call after => exists_admitted_near hsorted, ?_⟩
  · rintro n ⟨chosen, hsub, hapart, rfl⟩
    exact length_le_countAt hsorted hsub hapart
  · intro longer hle
    obtain ⟨chosen, hsub, hapart, hlength⟩ := exists_chosen longer instants
    rw [← hlength]
    exact length_le_countAt hsorted hsub (hapart.imp fun h => h.of_le hle)

/-- Four of seven calls are admitted under an interval of ten, the one that comes exactly ten after
the first not among them. More than four of these instants never lie apart, and under an interval
of eleven no more are admitted. -/
theorem countAt_isGreatest_burst :
    let instants : List Instant := [0, 10, 10, 11, 21, 22, 33]
    instants.Pairwise (· ≤ ·) ∧
      ({} : WarnGate).answers (callsAt (.ofNanos 10) instants) =
        [true, false, false, true, false, true, true] ∧
      (∀ chosen : List Instant, chosen.Sublist instants →
        chosen.Pairwise (Apart (.ofNanos 10)) → chosen.length ≤ 4) ∧
      countAt (.ofNanos 11) instants ≤ 4 := by
  intro instants
  have hsorted : instants.Pairwise (· ≤ ·) := by decide
  have hcount : countAt (.ofNanos 10) instants = 4 := by decide
  obtain ⟨⟨-, hmost⟩, -, hlonger⟩ := countAt_isGreatest (.ofNanos 10) hsorted
  rw [hcount] at hmost hlonger
  exact ⟨hsorted, by decide, fun chosen hsub hapart => hmost ⟨chosen, hsub, hapart, rfl⟩,
    hlonger (.ofNanos 11) (by decide)⟩

end WarnGate

end Backpressure
