import Backpressure.Proofs.Grammar
import Backpressure.Proofs.PolicyNames
set_option autoImplicit false

/-!
# Values of settings as they may be written

A setting can be written in more ways than one: a policy as a string or as an object, a duration as
an object with its parts in either order or as an array, with blanks in all places where JSON has
them and with every spelling of the strings. `Field.Says` lists these texts for every field. Each of
them is read as the value that it stands for, in front of every text that does not go on with it.
-/

namespace Backpressure.Json

open Backpressure.Decimal (natural integer)

/-! ## Objects and arrays -/

/-- The text of an object with some members. -/
def IsObject (ms : List Member) (cs : List Char) : Prop :=
  ∃ text, Listed '\x7d' true (ms.map Member.text) text ∧ cs = '\x7b' :: text

/-- The text of an array with some elements. -/
def IsArray (values : List (List Char)) (cs : List Char) : Prop :=
  ∃ text, Listed ']' true values text ∧ cs = '[' :: text

/-- The key of a member spells a name, and there are blanks around the colon. -/
structure Member.Names (m : Member) (name : List Char) : Prop where
  key : Spells m.key name
  gap : Blanks m.gap
  lead : Blanks m.lead

/-! ## Values -/

/-- A text says a policy: as a string that spells its name, or as an object with null under its
name. -/
inductive SaysPolicy (p : Policy) : List Char → Prop where
  | string {raw : List Char} (spells : Spells raw p.name.toList) :
      SaysPolicy p ('\x22' :: (raw ++ ['\x22']))
  | object {m : Member} {cs : List Char} (names : m.Names p.name.toList)
      (null : m.value = ['n', 'u', 'l', 'l']) (object : IsObject [m] cs) : SaysPolicy p cs

/-- Seconds and nanoseconds, each in its width, make up a duration. -/
structure IsParts (d : Duration) (seconds nanos : Nat) : Prop where
  seconds_lt : seconds < 0x1_0000_0000_0000_0000
  nanos_lt : nanos < 0x1_0000_0000
  parts : Duration.ofParts? seconds nanos = some d

/-- A text says a duration: as an object with its parts in either order, or as an array of them. -/
inductive SaysDuration (d : Duration) : List Char → Prop where
  | object {m n : Member} {ms : List Member} {seconds nanos : Nat} {cs : List Char}
      (parts : IsParts d seconds nanos) (secs_names : m.Names "secs".toList)
      (secs_value : m.value = natural seconds) (nanos_names : n.Names "nanos".toList)
      (nanos_value : n.value = natural nanos) (order : ms = [m, n] ∨ ms = [n, m])
      (object : IsObject ms cs) : SaysDuration d cs
  | array {seconds nanos : Nat} {cs : List Char} (parts : IsParts d seconds nanos)
      (array : IsArray [natural seconds, natural nanos] cs) : SaysDuration d cs

/-- A text says an optional duration: as null, or as the duration. -/
inductive SaysTimeout : Option Duration → List Char → Prop where
  | null : SaysTimeout none ['n', 'u', 'l', 'l']
  | some {d : Duration} {cs : List Char} (duration : SaysDuration d cs) : SaysTimeout (some d) cs

/-- A text says the value that a field has in some settings. An integer has one text only: with a
fraction, with an exponent or as a negative zero it is no integer. -/
def Field.Says (f : Field) (cs : List Char) (s : Settings) : Prop :=
  match f with
  | policy => SaysPolicy s.policy cs
  | limit d => cs = integer (s.limits.get d).toInt
  | logInterval => SaysDuration s.logInterval cs
  | blockTimeout => SaysTimeout s.blockTimeout cs

/-- The choice that gives a field the value that it has in some settings. -/
def Field.choice (s : Settings) : Field → Settings.Choice
  | policy => .policy s.policy
  | limit d => .limit d (s.limits.get d)
  | logInterval => .logInterval s.logInterval
  | blockTimeout => .blockTimeout s.blockTimeout

variable {closing : Char} {first : Bool} {cs ws text part rest : List Char}
  {parts : List (List Char)}

/-! ## Blanks in front of a value -/

/-- A reader does not mind blanks in front of a value. -/
def SkipsBlanks {α : Type} (read : Step α) : Prop :=
  ∀ ws cs, Blanks ws → read (ws ++ cs) = read cs

theorem skipsBlanks_integer (w : Width) : SkipsBlanks (readInteger w) := by
  intro ws cs hws
  rw [readInteger, readInteger, skipBlanks_append hws]

theorem skipsBlanks_policy : SkipsBlanks readPolicy := by
  intro ws cs hws
  rw [readPolicy, readPolicy, skipBlanks_append hws]

theorem skipsBlanks_duration : SkipsBlanks readDuration := by
  intro ws cs hws
  rw [readDuration, readDuration, skipBlanks_append hws]

theorem skipsBlanks_timeout : SkipsBlanks readTimeout := by
  intro ws cs hws
  rw [readTimeout, readTimeout, skipBlanks_append hws]

theorem skipsBlanks_value (f : Field) (t : Settings) : SkipsBlanks (f.readValue t) := by
  intro ws cs hws
  cases f with
  | policy => simp only [Field.readValue, skipsBlanks_policy ws cs hws]
  | limit d => simp only [Field.readValue, skipsBlanks_integer .signed64 ws cs hws]
  | logInterval => simp only [Field.readValue, skipsBlanks_duration ws cs hws]
  | blockTimeout => simp only [Field.readValue, skipsBlanks_timeout ws cs hws]

/-- The value of a member is read behind its colon. -/
theorem reads_tail {α β : Type} {read : Step α} {m : Member} {a : α} (h : Reads read m.value a)
    (hskips : SkipsBlanks read) (hgap : Blanks m.gap) (hlead : Blanks m.lead) (f : α → β) :
    Reads (fun rest => do
      let rest ← expectMark ':' rest
      let (a, rest) ← read rest
      return (f a, rest)) m.tail (f a) := by
  intro rest hrest
  rw [m.tail_append]
  simp only [bind, Except.bind, expectMark_append ':' (by decide) hgap,
    hskips _ _ hlead]
  exact h.map f rest hrest

/-! ## Members of an object -/

/-- The members, one after the other, lead from one state to another if each of them is read where
it stands. -/
inductive Leads {σ : Type} (member : σ → List Char → Step σ) : σ → List Member → σ → Prop where
  | nil (s : σ) : Leads member s [] s
  | cons {s t u : σ} {m : Member} {ms : List Member} {name : List Char}
      (key : Spells m.key name) (read : Reads (member s name) m.tail t)
      (later : Leads member t ms u) : Leads member s (m :: ms) u

/-- Every part takes some room. -/
theorem Listed.length_le (h : Listed closing first parts text)
    (hparts : ∀ part ∈ parts, 0 < part.length) : parts.length < text.length := by
  induction h with
  | close _ => simp
  | part _ _ ih =>
    obtain ⟨hpart, hparts⟩ := List.forall_mem_cons.mp hparts
    have hlater := ih hparts
    simp only [List.length_append, List.length_cons]
    omega

theorem readMembers_of_leads {σ : Type} {member : σ → List Char → Step σ} {s t : σ}
    {ms : List Member} (h : Leads member s ms t)
    (hlisted : Listed '\x7d' first (ms.map Member.text) text) {fuel : Nat}
    (hfuel : ms.length < fuel) (rest : List Char) :
    readMembers member fuel first s (text ++ rest) = .ok (t, rest) := by
  induction h generalizing fuel first text with
  | nil s =>
    obtain ⟨fuel, rfl⟩ : ∃ n, fuel = n + 1 := Nat.exists_eq_add_one.mpr hfuel
    cases hlisted with
    | close blanks =>
      rw [List.append_assoc, List.singleton_append, readMembers, next_close blanks (by decide)]
  | @cons s t u m ms name key read later ih =>
    obtain ⟨fuel, rfl⟩ : ∃ n, fuel = n + 1 := Nat.exists_eq_add_one.mpr (Nat.zero_lt_of_lt hfuel)
    cases hlisted with
    | @part _ sep _ text _ gap listed =>
      have hmember : member s name (m.tail ++ (text ++ rest)) = .ok (t, text ++ rest) :=
        read _ (listed.closed_append (by decide) rest)
      have hlater := ih listed (Nat.lt_of_succ_lt_succ hfuel)
      rw [List.append_assoc, List.append_assoc, readMembers,
        next_part gap m.begins_text (by decide), m.text_append]
      simp only [bind, Except.bind, expectMark_cons '\x22' (by decide), readString_append key,
        hmember, hlater]

/-- An object whose members are read where they stand is read. -/
theorem readObject_of_leads {σ : Type} {member : σ → List Char → Step σ} {s t : σ}
    {ms : List Member} (h : Leads member s ms t)
    (hlisted : Listed '\x7d' true (ms.map Member.text) text) (rest : List Char) :
    readObject member s (text ++ rest) = .ok (t, rest) := by
  have hlength := hlisted.length_le fun part hpart => by
    obtain ⟨m, -, rfl⟩ := List.mem_map.mp hpart
    exact m.begins_text.length_pos
  rw [List.length_map] at hlength
  refine readMembers_of_leads h hlisted ?_ rest
  rw [List.length_append]
  omega

/-! ## Reading what is said -/

theorem SaysPolicy.reads {p : Policy} (h : SaysPolicy p cs) : Reads readPolicy cs p := by
  intro rest _
  have hnamed : policyNamed p.name.toList = .ok p := Policy.policyNamed_eq_ok_iff.mpr rfl
  cases h with
  | @string raw spells =>
    rw [List.cons_append, List.append_assoc, readPolicy, skipBlanks_cons (by decide)]
    simp only [bind, Except.bind, List.singleton_append, readString_append spells, hnamed]
    rfl
  | @object m cs names null object =>
    obtain ⟨text, hlisted, rfl⟩ := object
    cases hlisted with
    | @part _ sep _ text _ gap later =>
      cases later with
      | @close _ ws blanks =>
        have htext : sep ++ (m.text ++ (ws ++ ['\x7d'])) ++ rest =
            sep ++ '\x22' :: (m.key ++ '\x22' :: (m.gap ++ ':' :: (m.lead ++
              'n' :: (['u', 'l', 'l'] ++ (ws ++ '\x7d' :: rest))))) := by
          simp [Member.text, Member.tail, null]
        have hnull : readNull .unit (m.lead ++ 'n' :: (['u', 'l', 'l'] ++ (ws ++ '\x7d' :: rest))) =
            .ok (ws ++ '\x7d' :: rest) := by
          rw [readNull, skipBlanks_append names.lead, skipBlanks_cons (by decide)]
          exact expectWord_append _ _
        rw [List.cons_append, htext, readPolicy, skipBlanks_cons (by decide)]
        simp only [bind, Except.bind, expectMark_append '\x22' (by decide) gap,
          readString_append names.key, hnamed, expectMark_append ':' (by decide) names.gap, hnull,
          expectMark_append '\x7d' (by decide) blanks]
        rfl

theorem reads_seconds {n : Nat} (h : n < 0x1_0000_0000_0000_0000) :
    Reads (readInteger .unsigned64) (natural n) n :=
  reads_natural h (by decide) (by simp only [Width.unsigned64]; omega)

theorem reads_nanos {n : Nat} (h : n < 0x1_0000_0000) :
    Reads (readInteger .unsigned32) (natural n) n :=
  reads_natural (Nat.lt_trans h (by decide)) (by decide) (by simp only [Width.unsigned32]; omega)

/-- Both parts of a duration are read, whichever is the first. -/
theorem leads_duration {m n : Member} {seconds nanos : Nat}
    (hm : m.Names "secs".toList) (hseconds : m.value = natural seconds)
    (hn : n.Names "nanos".toList) (hnanos : n.value = natural nanos)
    (hlt : seconds < 0x1_0000_0000_0000_0000) (hlt' : nanos < 0x1_0000_0000) :
    Leads durationMember {} [m, n] ⟨some seconds, some nanos⟩ ∧
      Leads durationMember {} [n, m] ⟨some seconds, some nanos⟩ := by
  have hsecs (parts : DurationParts) (hnew : parts.seconds = none) :
      Reads (durationMember parts "secs".toList) m.tail { parts with seconds := some seconds } := by
    have hread := reads_tail (hseconds ▸ reads_seconds hlt) (skipsBlanks_integer .unsigned64) hm.gap
      hm.lead fun z : Int => { parts with seconds := some z }
    intro rest hrest
    rw [durationMember, if_pos rfl, hnew]
    exact hread rest hrest
  have hnans (parts : DurationParts) (hnew : parts.nanos = none) :
      Reads (durationMember parts "nanos".toList) n.tail { parts with nanos := some nanos } := by
    have hread := reads_tail (hnanos ▸ reads_nanos hlt') (skipsBlanks_integer .unsigned32) hn.gap
      hn.lead fun z : Int => { parts with nanos := some z }
    intro rest hrest
    rw [durationMember, if_neg (by decide), if_pos rfl, hnew]
    exact hread rest hrest
  exact ⟨.cons hm.key (hsecs {} rfl) (.cons hn.key (hnans _ rfl) (.nil _)),
    .cons hn.key (hnans {} rfl) (.cons hm.key (hsecs _ rfl) (.nil _))⟩

theorem begins_natural (n : Nat) : Begins ']' (natural n) := by
  obtain ⟨c, cs, hcs, hdigit⟩ := Decimal.natural_eq_cons n
  refine ⟨c, cs, hcs, isBlank_of_isDigit hdigit, ?_⟩
  rintro rfl
  exact absurd hdigit (by decide)

theorem durationOf_isParts {d : Duration} {seconds nanos : Nat} (h : IsParts d seconds nanos) :
    durationOf seconds nanos = .ok d := by
  simp only [durationOf, Int.toNat_natCast, h.parts]

theorem SaysDuration.reads {d : Duration} (h : SaysDuration d cs) : Reads readDuration cs d := by
  intro rest _
  cases h with
  | @object m n ms seconds nanos cs parts hm hseconds hn hnanos order object =>
    obtain ⟨text, hlisted, rfl⟩ := object
    obtain ⟨hfirst, hsecond⟩ :=
      leads_duration hm hseconds hn hnanos parts.seconds_lt parts.nanos_lt
    have hleads : Leads durationMember {} ms ⟨some seconds, some nanos⟩ := by
      rcases order with rfl | rfl
      · exact hfirst
      · exact hsecond
    have hmembers := readObject_of_leads hleads hlisted rest
    have hduration : DurationParts.duration ⟨some seconds, some nanos⟩ = .ok d :=
      durationOf_isParts parts
    rw [List.cons_append, readDuration, skipBlanks_cons (by decide)]
    simp only [bind, Except.bind, hmembers, hduration]
    rfl
  | @array seconds nanos cs parts array =>
    obtain ⟨text, hlisted, rfl⟩ := array
    cases hlisted with
    | @part _ sep _ _ _ gap later =>
      have hclosed := later.closed_append (by decide) rest
      cases later with
      | @part _ sep' _ _ _ gap' last =>
        have hclosed' := last.closed_append (by decide) rest
        cases last with
        | @close _ ws blanks =>
          simp only [List.append_assoc, List.singleton_append] at hclosed hclosed'
          rw [List.cons_append, readDuration, skipBlanks_cons (by decide)]
          simp only [readDurationArray, bind, Except.bind, List.append_assoc,
            List.singleton_append, next_part gap (begins_natural seconds) (by decide),
            reads_seconds parts.seconds_lt _ hclosed,
            next_part gap' (begins_natural nanos) (by decide),
            reads_nanos parts.nanos_lt _ hclosed', durationOf_isParts parts,
            expectMark_append ']' (by decide) blanks]
          rfl

/-- A duration begins with an opening bracket. -/
theorem SaysDuration.eq_cons {d : Duration} (h : SaysDuration d cs) :
    ∃ c tail, cs = c :: tail ∧ (c = '\x7b' ∨ c = '[') := by
  cases h with
  | object _ _ _ _ _ _ object =>
    obtain ⟨text, -, rfl⟩ := object
    exact ⟨_, text, rfl, .inl rfl⟩
  | array _ array =>
    obtain ⟨text, -, rfl⟩ := array
    exact ⟨_, text, rfl, .inr rfl⟩

theorem SaysDuration.begins {d : Duration} (h : SaysDuration d cs) : Begins ']' cs := by
  obtain ⟨c, tail, rfl, rfl | rfl⟩ := h.eq_cons
  · exact ⟨_, tail, rfl, by decide, by decide⟩
  · exact ⟨_, tail, rfl, by decide, by decide⟩

theorem SaysTimeout.reads {timeout : Option Duration} (h : SaysTimeout timeout cs) :
    Reads readTimeout cs timeout := by
  intro rest hrest
  cases h with
  | null => rfl
  | @some d cs duration =>
    have hread := duration.reads.map Option.some rest hrest
    obtain ⟨c, tail, rfl, hc⟩ := duration.eq_cons
    have hblank : isBlank c = false := by rcases hc with rfl | rfl <;> decide
    have hnull : c ≠ 'n' := by rcases hc with rfl | rfl <;> decide
    rw [List.cons_append] at hread ⊢
    rw [readTimeout, skipBlanks_cons hblank]
    split
    · rename_i heq
      exact absurd (List.cons.inj heq).1 hnull
    · exact hread

/-- What a text says of a field is read from it. -/
theorem reads_said {f : Field} {s : Settings} (h : f.Says cs s) (t : Settings) :
    Reads (f.readValue t) cs (t.choose (f.choice s)) := by
  cases f with
  | policy => exact (SaysPolicy.reads h).map fun p => t.choose (.policy p)
  | limit d =>
    have hleast : -0x8000_0000_0000_0000 ≤ (s.limits.get d).toInt := (s.limits.get d).le_toInt
    have hlt : (s.limits.get d).toInt < 0x8000_0000_0000_0000 := (s.limits.get d).toInt_lt
    have hread : Reads (readInteger .signed64) cs (s.limits.get d).toInt := by
      rw [show cs = integer (s.limits.get d).toInt from h]
      exact reads_integer ⟨hleast, by omega⟩ hleast (Int.le_of_lt_add_one hlt)
    have hmade : Reads ((Field.limit d).readValue t) cs
        (t.choose (.limit d (Int64.ofInt (s.limits.get d).toInt))) :=
      hread.map fun z => t.choose (.limit d (Int64.ofInt z))
    rwa [Int64.ofInt_toInt] at hmade
  | logInterval => exact (SaysDuration.reads h).map fun d => t.choose (.logInterval d)
  | blockTimeout => exact (SaysTimeout.reads h).map fun d => t.choose (.blockTimeout d)

/-! ## Fields of settings -/

section Choices

variable {f g : Field} {s t : Settings}

theorem choice_choose_self (f : Field) (s t : Settings) :
    f.choice (t.choose (f.choice s)) = f.choice s := by
  cases f with
  | limit d => simp [Field.choice, Settings.choose]
  | policy | logInterval | blockTimeout => rfl

theorem choice_choose_of_ne (h : g ≠ f) (s t : Settings) :
    g.choice (t.choose (f.choice s)) = g.choice t := by
  cases f with
  | limit d =>
    cases g with
    | limit e =>
      have hne : e ≠ d := fun he => h (congrArg Field.limit he)
      simp [Field.choice, Settings.choose, Figures.get_set_of_ne hne]
    | policy | logInterval | blockTimeout => rfl
  | policy | logInterval | blockTimeout =>
    cases g with
    | limit e => rfl
    | policy | logInterval | blockTimeout => first | rfl | exact absurd rfl h

/-- Once every field was chosen nothing is left of what was there before. -/
theorem chooseAll_choices (s t : Settings) : t.chooseAll (Field.all.map (Field.choice s)) = s :=
  rfl

/-- Settings with the same value in every field are the same. -/
theorem eq_of_choices (h : ∀ f : Field, f.choice s = f.choice t) : s = t := by
  rw [← chooseAll_choices s t, ← chooseAll_choices t t]
  exact congrArg (t.chooseAll ·) (List.map_congr_left fun f _ => h f)

theorem Field.Says.congr {value : List Char} (h : f.choice s = f.choice t) (hs : f.Says value s) :
    f.Says value t := by
  cases f with
  | policy | limit d | logInterval | blockTimeout =>
    simp only [Field.choice, Settings.Choice.policy.injEq, Settings.Choice.limit.injEq, true_and,
      Settings.Choice.logInterval.injEq, Settings.Choice.blockTimeout.injEq] at h
    simpa only [Says, h] using hs

/-- A text says one value of a field at most. -/
theorem Field.Says.unique {value : List Char} (hs : f.Says value s) (ht : f.Says value t) :
    f.choice s = f.choice t := by
  have hread := reads_said hs {} [] closed_nil
  rw [reads_said ht {} [] closed_nil] at hread
  have hchosen := (Prod.mk.inj (Except.ok.inj hread)).1
  rw [← choice_choose_self f s {}, ← choice_choose_self f t {}, hchosen]

end Choices

end Backpressure.Json
