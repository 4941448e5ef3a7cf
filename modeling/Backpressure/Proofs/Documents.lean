import Backpressure.Proofs.Extents
set_option autoImplicit false

/-!
# Documents of settings

A document of settings is an object whose members may stand in any order, with any others between
them, or an array that may end early. It overrides the defaults in the fields that it gives and in
no others, so two documents that give the same values for the same fields are read alike, whatever
else is in them. An object that gives a field twice is not read at all, even if its other members
are of no use for settings: the reader stays in step with the members up to the second one.
-/

namespace Backpressure.Json

/-! ## What a document gives -/

/-- The key of a member is that of a field. -/
def Member.Mentions (m : Member) (f : Field) : Prop := Spells m.key f.key.toList

/-- Among the members is one that gives a field this value. -/
def Gives (ms : List Member) (f : Field) (value : List Char) : Prop :=
  ∃ m ∈ ms, m.Mentions f ∧ m.value = value

/-- A member has a field with a value of its kind, or any value under any other key. A key is a
text: an escape for half of a surrogate pair, on its own, spells none. -/
structure Member.Fits (m : Member) : Prop where
  gap : Blanks m.gap
  lead : Blanks m.lead
  fits : (∃ f, m.Mentions f ∧ ∃ s, f.Says m.value s) ∨
    (∃ name, Spells m.key name) ∧ (∀ f, ¬ m.Mentions f) ∧ IsValue m.value

/-- No two members have the same field. -/
def Distinct (ms : List Member) : Prop :=
  ms.Pairwise fun m n => ∀ f, m.Mentions f → ¬ n.Mentions f

/-- A document: blanks around a value. -/
def IsDocument (isValue : List Char → Prop) (text : String) : Prop :=
  ∃ before cs after, Blanks before ∧ Blanks after ∧ isValue cs ∧
    text.toList = before ++ (cs ++ after)

theorem IsDocument.bare {isValue : List Char → Prop} {cs : List Char} {text : String}
    (h : isValue cs) (htext : text.toList = cs) : IsDocument isValue text :=
  ⟨[], cs, [], List.forall_mem_nil _, List.forall_mem_nil _, h, by simp [htext]⟩

/-- Settings with exactly the given fields replaced, each by what its text says. -/
structure Overrides (gives : Field → List Char → Prop) (s t : Settings) : Prop where
  given : ∀ f value, gives f value → f.Says value t
  others : ∀ f, (∀ value, ¬ gives f value) → f.choice t = f.choice s

variable {first : Bool} {cs rest text value : List Char} {f g : Field} {s t u : Settings}
  {m : Member} {ms : List Member} {gives gives' : Field → List Char → Prop}

theorem ofKey?_eq_some_iff {name : List Char} :
    Field.ofKey? name = some f ↔ name = f.key.toList := by
  constructor
  · intro h
    rw [Field.ofKey?] at h
    have hkey := List.find?_some h
    exact (beq_iff_eq.mp hkey).symm
  · rintro rfl
    exact Field.ofKey?_key f

/-- A member mentions one field at most. -/
theorem Member.Mentions.unique (hf : m.Mentions f) (hg : m.Mentions g) : f = g := by
  have hkey : Field.ofKey? f.key.toList = some g :=
    ofKey?_eq_some_iff.mpr (Spells.unique hf hg)
  rw [Field.ofKey?_key] at hkey
  exact Option.some.inj hkey

/-- Whose field it is, a key without escapes tells as it stands. -/
theorem Member.mentions_iff (hkey : m.key.all isPlain = true) :
    m.Mentions f ↔ Field.ofKey? m.key = some f := by
  rw [ofKey?_eq_some_iff]
  refine ⟨fun h => Spells.unique (spells_plain hkey) h, fun h => ?_⟩
  rw [Mentions, ← h]
  exact spells_plain hkey

theorem gives_cons_iff :
    Gives (m :: ms) f value ↔ m.Mentions f ∧ m.value = value ∨ Gives ms f value := by
  simp only [Gives, List.mem_cons, exists_eq_or_imp]

namespace Overrides

theorem refl (hgives : ∀ f value, ¬ gives f value) (s : Settings) : Overrides gives s s :=
  ⟨fun f value h => absurd h (hgives f value), fun _ _ => rfl⟩

theorem congr (h : Overrides gives s t) (hgives : ∀ f value, gives f value ↔ gives' f value) :
    Overrides gives' s t :=
  ⟨fun f value hf => h.given f value ((hgives f value).mpr hf),
    fun f hf => h.others f fun value hv => hf value ((hgives f value).mp hv)⟩

/-- A field that was given is kept if it is not given again. -/
theorem cons (h : Overrides gives (s.choose (f.choice u)) t) (hsaid : f.Says value u)
    (hnew : ∀ value, ¬ gives f value) :
    Overrides (fun g v => g = f ∧ v = value ∨ gives g v) s t := by
  refine ⟨?_, fun g hg => ?_⟩
  · rintro g v (⟨rfl, rfl⟩ | hgiven)
    · have hkept : g.choice u = g.choice t := by
        rw [h.others g hnew, choice_choose_self]
      exact hsaid.congr hkept
    · exact h.given g v hgiven
  · have hne : g ≠ f := fun heq => hg value (.inl ⟨heq, rfl⟩)
    rw [h.others g fun v hv => hg v (.inr hv), choice_choose_of_ne hne]

/-- What is given determines the settings. -/
theorem unique (ht : Overrides gives s t) (hu : Overrides gives s u) : t = u := by
  refine eq_of_choices fun f => ?_
  by_cases hgiven : ∃ value, gives f value
  · obtain ⟨value, hvalue⟩ := hgiven
    exact (ht.given f value hvalue).unique (hu.given f value hvalue)
  · have hnone : ∀ value, ¬ gives f value := not_exists.mp hgiven
    rw [ht.others f hnone, hu.others f hnone]

end Overrides

/-! ## Objects -/

/-- A member under another key is passed over. -/
theorem reads_unknown {name : List Char} (hgap : Blanks m.gap) (hlead : Blanks m.lead)
    (hname : Field.ofKey? name = none) (hvalue : IsValue m.value) (p : Progress) :
    Reads (settingsMember p name) m.tail p := by
  intro rest hrest
  rw [settingsMember, hname, m.tail_append]
  simp only [bind, Except.bind, expectMark_append ':' (by decide) hgap,
    skipValue_append hlead hvalue hrest]
  rfl

/-- A member with a field that was not read yet is read. -/
theorem reads_known (hgap : Blanks m.gap) (hlead : Blanks m.lead) (hsaid : f.Says m.value u)
    {p : Progress} (hnew : f ∉ p.seen) :
    Reads (settingsMember p f.key.toList) m.tail
      ⟨p.settings.choose (f.choice u), f :: p.seen⟩ := by
  intro rest hrest
  rw [settingsMember, Field.ofKey?_key]
  simp only [if_neg hnew]
  exact reads_tail (reads_said hsaid p.settings) (skipsBlanks_value f p.settings) hgap hlead
    (fun t => (⟨t, f :: p.seen⟩ : Progress)) rest hrest

/-- Members that fit, none with a field that was read before, are read and override what was
chosen before. -/
theorem leads_settings (hfits : ∀ m ∈ ms, m.Fits) (hdistinct : Distinct ms) (p : Progress)
    (hnew : ∀ m ∈ ms, ∀ f ∈ p.seen, ¬ m.Mentions f) :
    ∃ q, Leads settingsMember p ms q ∧ Overrides (Gives ms) p.settings q.settings := by
  -- What was seen grows with each member of a field, and the members behind it have none of it.
  induction ms generalizing p with
  | nil => exact ⟨p, .nil p, .refl (by simp [Gives]) p.settings⟩
  | cons m ms ih =>
    obtain ⟨⟨hgap, hlead, hvalue⟩, hfits⟩ := List.forall_mem_cons.mp hfits
    obtain ⟨hm, hdistinct⟩ := List.pairwise_cons.mp hdistinct
    obtain ⟨hfirst, hnew⟩ := List.forall_mem_cons.mp hnew
    rcases hvalue with ⟨f, hmentions, u, hsaid⟩ | ⟨⟨name, hkey⟩, hunknown, hvalue⟩
    · have hunseen : f ∉ p.seen := fun hf => hfirst f hf hmentions
      have hothers : ∀ n ∈ ms, ∀ g ∈ f :: p.seen, ¬ n.Mentions g := by
        intro n hn
        exact List.forall_mem_cons.mpr ⟨hm n hn f hmentions, hnew n hn⟩
      obtain ⟨q, hleads, hoverrides⟩ :=
        ih hfits hdistinct ⟨p.settings.choose (f.choice u), f :: p.seen⟩ hothers
      have hgiven : ∀ value, ¬ Gives ms f value := by
        rintro value ⟨n, hn, hf, -⟩
        exact hm n hn f hmentions hf
      refine ⟨q, .cons hmentions (reads_known hgap hlead hsaid hunseen) hleads,
        (hoverrides.cons hsaid hgiven).congr fun g value => ?_⟩
      rw [gives_cons_iff]
      refine or_congr_left (and_congr ⟨?_, fun hg => hg.unique hmentions⟩ eq_comm)
      rintro rfl
      exact hmentions
    · have hname : Field.ofKey? name = none := by
        refine Option.eq_none_iff_forall_ne_some.mpr fun f hf => hunknown f ?_
        obtain rfl := ofKey?_eq_some_iff.mp hf
        exact hkey
      obtain ⟨q, hleads, hoverrides⟩ := ih hfits hdistinct p hnew
      refine ⟨q, .cons hkey (reads_unknown hgap hlead hname hvalue p) hleads,
        hoverrides.congr fun g value => ?_⟩
      rw [gives_cons_iff, or_iff_right fun h => hunknown g h.1]

/-- An object whose members fit is read, and gives the defaults, overridden. -/
theorem reads_object (hobject : IsObject ms cs) (hfits : ∀ m ∈ ms, m.Fits)
    (hdistinct : Distinct ms) :
    ∃ s, Reads readSettings cs s ∧ Overrides (Gives ms) {} s := by
  obtain ⟨text, hlisted, rfl⟩ := hobject
  obtain ⟨q, hleads, hoverrides⟩ :=
    leads_settings hfits hdistinct {} fun _ _ f hf => absurd hf List.not_mem_nil
  refine ⟨q.settings, fun rest _ => ?_, hoverrides⟩
  rw [List.cons_append, readSettings, skipBlanks_cons (by decide)]
  simp only [bind, Except.bind, readObject_of_leads hleads hlisted rest]
  rfl

theorem skipsBlanks_settings : SkipsBlanks readSettings := by
  intro ws cs hws
  rw [readSettings, readSettings, skipBlanks_append hws]

/-- What is read of the value of a document is read of the document. -/
theorem IsDocument.exists_document {α : Type} {read : Step α} {isValue : List Char → Prop}
    {doc : String} (hdoc : IsDocument isValue doc) (hskips : SkipsBlanks read) :
    ∃ cs, isValue cs ∧ ∀ a, Reads read cs a → document read doc = .ok a := by
  obtain ⟨before, cs, after, hbefore, hafter, hvalue, hdoc⟩ := hdoc
  refine ⟨cs, hvalue, fun a hread => document_eq_ok_iff.mpr ⟨after, ?_, hafter⟩⟩
  have hclosed : Closed after := by
    rw [← List.append_nil after]
    exact closed_nil.append_blanks hafter
  rw [hdoc, hskips _ _ hbefore]
  exact hread after hclosed

/-- A document of an object whose members fit gives the defaults, overridden. -/
theorem parseSettings_object {doc : String} (hdoc : IsDocument (IsObject ms) doc)
    (hfits : ∀ m ∈ ms, m.Fits) (hdistinct : Distinct ms) :
    ∃ s, parseSettings doc = .ok s ∧ Overrides (Gives ms) {} s := by
  obtain ⟨cs, hobject, hdocument⟩ := hdoc.exists_document skipsBlanks_settings
  obtain ⟨s, hread, hoverrides⟩ := reads_object hobject hfits hdistinct
  exact ⟨s, hdocument s hread, hoverrides⟩

/-! ## Order, and members without a field -/

/-- Two objects have the same members but for their order, and but for members without a field. -/
def SameFields (ms ms' : List Member) : Prop :=
  ∃ known more less, ms.Perm (known ++ more) ∧ ms'.Perm (known ++ less) ∧
    ∀ m ∈ more ++ less, ∀ f, ¬ m.Mentions f

theorem distinct_iff_of_perm {known more : List Member} (hperm : ms.Perm (known ++ more))
    (hmore : ∀ m ∈ more, ∀ f, ¬ m.Mentions f) : Distinct ms ↔ Distinct known := by
  have hsymm : ∀ {m n : Member}, (∀ f, m.Mentions f → ¬ n.Mentions f) →
      ∀ f, n.Mentions f → ¬ m.Mentions f := fun h f hn hm => h f hm hn
  rw [Distinct, hperm.pairwise_iff hsymm, List.pairwise_append]
  refine ⟨fun h => h.1, fun h => ⟨h, ?_, fun m _ n hn f _ => hmore n hn f⟩⟩
  exact List.pairwise_of_forall_mem_list fun m hm _ _ f hf => absurd hf (hmore m hm f)

theorem gives_iff_of_perm {known more : List Member} (hperm : ms.Perm (known ++ more))
    (hmore : ∀ m ∈ more, ∀ f, ¬ m.Mentions f) : Gives ms f value ↔ Gives known f value := by
  constructor
  · rintro ⟨m, hm, hf, hvalue⟩
    rcases List.mem_append.mp (hperm.mem_iff.mp hm) with hknown | hm
    · exact ⟨m, hknown, hf, hvalue⟩
    · exact absurd hf (hmore m hm f)
  · rintro ⟨m, hm, hf, hvalue⟩
    exact ⟨m, hperm.mem_iff.mpr (List.mem_append_left more hm), hf, hvalue⟩

namespace SameFields

variable {ms' : List Member}

theorem distinct (h : SameFields ms ms') (hdistinct : Distinct ms) : Distinct ms' := by
  obtain ⟨known, more, less, hperm, hperm', hnone⟩ := h
  rw [List.forall_mem_append] at hnone
  rw [distinct_iff_of_perm hperm hnone.1] at hdistinct
  exact (distinct_iff_of_perm hperm' hnone.2).mpr hdistinct

theorem gives_iff (h : SameFields ms ms') : Gives ms f value ↔ Gives ms' f value := by
  obtain ⟨known, more, less, hperm, hperm', hnone⟩ := h
  rw [List.forall_mem_append] at hnone
  rw [gives_iff_of_perm hperm hnone.1, gives_iff_of_perm hperm' hnone.2]

end SameFields

/-- Documents of objects that give the same values for the same fields are read alike. -/
theorem parseSettings_congr {ms' : List Member} {doc doc' : String}
    (hdoc : IsDocument (IsObject ms) doc) (hfits : ∀ m ∈ ms, m.Fits) (hdistinct : Distinct ms)
    (hdoc' : IsDocument (IsObject ms') doc') (hfits' : ∀ m ∈ ms', m.Fits)
    (hsame : SameFields ms ms') : ∃ s, parseSettings doc = .ok s ∧ parseSettings doc' = .ok s := by
  obtain ⟨s, hs, hoverrides⟩ := parseSettings_object hdoc hfits hdistinct
  obtain ⟨t, ht, hoverrides'⟩ := parseSettings_object hdoc' hfits' (hsame.distinct hdistinct)
  obtain rfl := (hoverrides.congr fun _ _ => hsame.gives_iff).unique hoverrides'
  exact ⟨s, hs, ht⟩

/-! ## Arrays -/

/-- What a text says of a field does not begin as if an array were closed. -/
theorem Field.Says.begins (h : f.Says value s) : Begins ']' value := by
  cases f with
  | policy =>
    cases h with
    | string _ => exact ⟨_, _, rfl, by decide, by decide⟩
    | object _ _ object =>
      obtain ⟨text, -, rfl⟩ := object
      exact ⟨_, text, rfl, by decide, by decide⟩
  | limit d =>
    obtain ⟨c, tail, hvalue, hstarts, hblank⟩ := integer_eq_cons (s.limits.get d).toInt
    exact ⟨c, tail, h.trans hvalue, hblank, ne_of_startsNumber hstarts ']' (by decide)⟩
  | logInterval => exact SaysDuration.begins h
  | blockTimeout =>
    generalize hd : s.blockTimeout = timeout at h
    rw [Says, hd] at h
    cases h with
    | null => exact ⟨_, _, rfl, by decide, by decide⟩
    | some duration => exact duration.begins

/-- Elements that say values of the first fields are read and override what was chosen before. -/
theorem readElements_listed {values : List (List Char)} {fields : List Field}
    (h : Listed ']' first values text) (hlength : values.length ≤ fields.length)
    (hnodup : fields.Nodup) (hsaid : ∀ f v, (f, v) ∈ fields.zip values → ∃ u, f.Says v u)
    (s : Settings) :
    ∃ t, (∀ rest, readElements first s fields (text ++ rest) = .ok (t, rest)) ∧
      Overrides (fun f v => (f, v) ∈ fields.zip values) s t := by
  induction h generalizing fields s with
  | @close first ws blanks =>
    refine ⟨s, fun rest => ?_, .refl (by simp) s⟩
    rw [List.append_assoc, List.singleton_append]
    cases fields with
    | nil =>
      rw [readElements]
      simp only [bind, Except.bind, expectMark_append ']' (by decide) blanks]
      rfl
    | cons f fields =>
      have hclose : next ']' first (ws ++ ']' :: rest) = .ok (.close rest) :=
        next_close blanks (by decide) first rest
      rw [readElements]
      simp only [bind, Except.bind, hclose]
      rfl
  | @part first sep value text values gap later ih =>
    obtain ⟨f, fields, rfl⟩ : ∃ f fs, fields = f :: fs :=
      List.exists_cons_of_ne_nil (List.ne_nil_of_length_pos (Nat.zero_lt_of_lt hlength))
    obtain ⟨hnew, hnodup⟩ := List.nodup_cons.mp hnodup
    obtain ⟨u, hu⟩ := hsaid f value List.mem_cons_self
    obtain ⟨t, hlater, hoverrides⟩ := ih (Nat.le_of_succ_le_succ hlength) hnodup
      (fun g v hgv => hsaid g v (List.mem_cons_of_mem _ hgv)) (s.choose (f.choice u))
    have hgiven : ∀ v, (f, v) ∉ fields.zip values :=
      fun v hv => hnew (List.of_mem_zip hv).1
    refine ⟨t, fun rest => ?_, (hoverrides.cons hu hgiven).congr fun g v => ?_⟩
    · have hvalue : f.readValue s (value ++ (text ++ rest)) =
          .ok (s.choose (f.choice u), text ++ rest) :=
        reads_said hu s _ (later.closed_append (by decide) rest)
      rw [List.append_assoc, List.append_assoc, readElements]
      simp only [bind, Except.bind, next_part gap hu.begins (by decide), hvalue, hlater]
    · rw [List.zip_cons_cons, List.mem_cons, Prod.mk.injEq]

/-- A document of an array that says values of the first fields gives the defaults, overridden. -/
theorem parseSettings_array {values : List (List Char)} {doc : String}
    (hdoc : IsDocument (IsArray values) doc) (hlength : values.length ≤ Field.all.length)
    (hsaid : ∀ f v, (f, v) ∈ Field.all.zip values → ∃ u, f.Says v u) :
    ∃ s, parseSettings doc = .ok s ∧
      Overrides (fun f v => (f, v) ∈ Field.all.zip values) {} s := by
  obtain ⟨cs, ⟨text, hlisted, rfl⟩, hdocument⟩ := hdoc.exists_document skipsBlanks_settings
  obtain ⟨s, hread, hoverrides⟩ := readElements_listed hlisted hlength (by decide) hsaid {}
  refine ⟨s, hdocument s fun rest _ => ?_, hoverrides⟩
  rw [List.cons_append, readSettings, skipBlanks_cons (by decide)]
  exact hread rest

/-! ## Fields that are given twice -/

/-- A member that is read, whatever its value, is read up to its end, and its field was not read
before. -/
theorem settingsMember_tail {name r : List Char} {p q : Progress} (hkeyed : m.IsKeyed)
    (hvalue : IsValue m.value) (hname : Spells m.key name) (hrest : Closed rest)
    (h : settingsMember p name (m.tail ++ rest) = .ok (q, r)) :
    r = rest ∧ (∀ f ∈ p.seen, ¬ m.Mentions f) ∧ ∀ f, m.Mentions f ∨ f ∈ p.seen → f ∈ q.seen := by
  have hfield : ∀ f, m.Mentions f → Field.ofKey? name = some f :=
    fun f hf => ofKey?_eq_some_iff.mpr (hname.unique hf)
  have hcolon := expectMark_append ':' (by decide) hkeyed.gap (m.lead ++ (m.value ++ rest))
  rw [settingsMember, m.tail_append] at h
  split at h
  · rename_i hnone
    have hno : ∀ f, ¬ m.Mentions f := fun f hf => by
      rw [hfield f hf] at hnone
      cases hnone
    simp only [bind, Except.bind, hcolon, skipValue_append hkeyed.lead hvalue hrest] at h
    cases h
    exact ⟨rfl, fun f _ => hno f, fun f hf => hf.resolve_left (hno f)⟩
  · rename_i f hf
    split at h
    · cases h
    · rename_i hnew
      obtain ⟨behind, hbehind, h⟩ := exists_of_bind_eq_ok h
      cases hcolon.symm.trans hbehind
      obtain ⟨⟨s, last⟩, hread, h⟩ := exists_of_bind_eq_ok h
      cases h
      have hmentions : ∀ g, m.Mentions g → g = f := fun g hg =>
        Option.some.inj ((hfield g hg).symm.trans hf)
      -- The value need not be of the field's kind for its end to be known.
      refine ⟨(skipsTo_of_readValue hread).unique (hvalue.skipsTo hkeyed.lead hrest), ?_, ?_⟩
      · rintro g hg hm
        exact hnew (hmentions g hm ▸ hg)
      · rintro g (hm | hg)
        · exact List.mem_cons.mpr (.inl (hmentions g hm))
        · exact List.mem_cons_of_mem f hg

/-- Members that are read, whatever their values, have no field that was read before, and none
twice. -/
theorem distinct_of_readMembers {fuel : Nat} {p q : Progress} {r : List Char}
    (hms : ∀ m ∈ ms, m.IsKeyed ∧ IsValue m.value)
    (hlisted : Listed '\x7d' first (ms.map Member.text) text)
    (h : readMembers settingsMember fuel first p (text ++ rest) = .ok (q, r)) :
    (∀ m ∈ ms, ∀ f ∈ p.seen, ¬ m.Mentions f) ∧ Distinct ms := by
  induction ms generalizing fuel first text p with
  | nil => exact ⟨fun _ hm => absurd hm List.not_mem_nil, List.Pairwise.nil⟩
  | cons m ms ih =>
    obtain ⟨⟨hkeyed, hvalue⟩, hms⟩ := List.forall_mem_cons.mp hms
    cases fuel with
    | zero => cases h
    | succ fuel =>
      cases hlisted with
      | @part _ sep _ text _ gap later =>
        rw [List.append_assoc, List.append_assoc, readMembers,
          next_part gap m.begins_text (by decide), m.text_append] at h
        obtain ⟨key, hquote, h⟩ := exists_of_bind_eq_ok h
        cases (expectMark_cons '\x22' (by decide) _).symm.trans hquote
        obtain ⟨⟨name, behind⟩, hname, h⟩ := exists_of_bind_eq_ok h
        obtain ⟨hspells, rfl⟩ := hkeyed.key.spells_of_readString hname
        obtain ⟨⟨u, r'⟩, hmember, h⟩ := exists_of_bind_eq_ok h
        obtain ⟨rfl, hnew, hseen⟩ := settingsMember_tail hkeyed hvalue hspells
          (later.closed_append (by decide) rest) hmember
        obtain ⟨hothers, hdistinct⟩ := ih hms later h
        -- A field of this member was seen when those behind it were read.
        refine ⟨List.forall_mem_cons.mpr ⟨hnew, fun n hn f hf => ?_⟩,
          List.pairwise_cons.mpr ⟨fun n hn f hf => ?_, hdistinct⟩⟩
        · exact hothers n hn f (hseen f (.inr hf))
        · exact hothers n hn f (hseen f (.inl hf))

/-- A document of an object gives no settings if two of its members have the same field. -/
theorem parseSettings_repeated {doc : String} (hdoc : IsDocument (IsObject ms) doc)
    (hms : ∀ m ∈ ms, m.IsKeyed ∧ IsValue m.value) (hrepeated : ¬ Distinct ms) :
    ∃ e, parseSettings doc = .error e := by
  cases hparse : parseSettings doc with
  | error e => exact ⟨e, rfl⟩
  | ok s =>
    obtain ⟨before, _, after, hbefore, -, ⟨text, hlisted, rfl⟩, hdoc⟩ := hdoc
    obtain ⟨rest, hread, -⟩ := document_eq_ok_iff.mp hparse
    rw [hdoc, List.cons_append, readSettings, skipBlanks_append hbefore,
      skipBlanks_cons (by decide)] at hread
    obtain ⟨⟨q, r⟩, hmembers, -⟩ := exists_of_bind_eq_ok hread
    exact absurd (distinct_of_readMembers hms hlisted hmembers).2 hrepeated

/-! ## Partial documents -/

/-- A document of settings overrides the defaults.

* An object whose members have different fields, each with a value of its kind, and any values
  under any other keys between them, gives the defaults with the fields it has replaced, and no
  others.
* Members may change places, and members without a field may come and go: the settings stay.
* An array of values for the first fields gives the same as an object that gives these fields the
  same values.
* An object in which two members have the same field gives no settings, whatever their values are
  and whatever else is in it. -/
theorem partial_documents_override_defaults :
    (∀ ms doc, IsDocument (IsObject ms) doc → (∀ m ∈ ms, m.Fits) → Distinct ms →
      ∃ s, parseSettings doc = .ok s ∧ Overrides (Gives ms) {} s) ∧
    (∀ ms ms' doc doc', IsDocument (IsObject ms) doc → IsDocument (IsObject ms') doc' →
      (∀ m ∈ ms ++ ms', m.Fits) → Distinct ms → SameFields ms ms' →
      ∃ s, parseSettings doc = .ok s ∧ parseSettings doc' = .ok s) ∧
    (∀ values doc, IsDocument (IsArray values) doc → values.length ≤ Field.all.length →
      (∀ f v, (f, v) ∈ Field.all.zip values → ∃ s, f.Says v s) →
      ∃ s, parseSettings doc = .ok s ∧ Overrides (fun f v => (f, v) ∈ Field.all.zip values) {} s ∧
        ∀ ms doc', IsDocument (IsObject ms) doc' → (∀ m ∈ ms, m.Fits) → Distinct ms →
          (∀ f v, Gives ms f v ↔ (f, v) ∈ Field.all.zip values) → parseSettings doc' = .ok s) ∧
    ∀ ms m n f doc, IsDocument (IsObject ms) doc → (∀ m ∈ ms, m.IsKeyed ∧ IsValue m.value) →
      List.Sublist [m, n] ms → m.Mentions f → n.Mentions f → ∃ e, parseSettings doc = .error e := by
  refine ⟨fun ms doc => parseSettings_object, ?_, ?_, ?_⟩
  · intro ms ms' doc doc' hdoc hdoc' hfits hdistinct hsame
    rw [List.forall_mem_append] at hfits
    exact parseSettings_congr hdoc hfits.1 hdistinct hdoc' hfits.2 hsame
  · intro values doc hdoc hlength hsaid
    obtain ⟨s, hs, hoverrides⟩ := parseSettings_array hdoc hlength hsaid
    refine ⟨s, hs, hoverrides, fun ms doc' hdoc' hfits hdistinct hgives => ?_⟩
    obtain ⟨t, ht, hoverrides'⟩ := parseSettings_object hdoc' hfits hdistinct
    obtain rfl := (hoverrides'.congr hgives).unique hoverrides
    exact ht
  · intro ms m n f doc hdoc hms hmn hm hn
    refine parseSettings_repeated hdoc hms fun hdistinct => ?_
    exact List.pairwise_iff_forall_sublist.mp hdistinct hmn f hm hn

/-- An unknown key in front of a policy makes no difference, an array of the policy says the same,
and a second policy is refused. -/
theorem partial_documents_override_defaults_unknownFirst :
    ∃ s, parseSettings "\x7b\"x\":null,\"policy\": \"block\"\x7d" = .ok s ∧ s.policy = .block ∧
      parseSettings "\x7b\"policy\": \"block\"\x7d" = .ok s ∧
      parseSettings "[\"block\"]" = .ok s ∧
      ∃ e, parseSettings "\x7b\"policy\": \"block\",\"policy\": \"block\"\x7d" = .error e := by
  obtain ⟨hobject, hsame, harray, hrepeated⟩ := partial_documents_override_defaults
  let x : Member := ⟨['x'], [], [], "null".toList⟩
  let p : Member := ⟨"policy".toList, [], [' '], '\x22' :: ("block".toList ++ ['\x22'])⟩
  have hx : ∀ f, ¬ x.Mentions f := fun f hf => by
    cases (Member.mentions_iff (by decide)).mp hf
  have hp : p.Mentions .policy := (Member.mentions_iff (by decide)).mpr (by decide)
  have hblock : Spells "block".toList Policy.block.name.toList := spells_plain (by decide)
  have hsaid : Field.policy.Says p.value { policy := .block } := SaysPolicy.string hblock
  have hxfits : x.Fits :=
    ⟨by decide, by decide, .inr ⟨⟨['x'], spells_plain (by decide)⟩, hx, .null⟩⟩
  have hpfits : p.Fits := ⟨by decide, by decide, .inl ⟨.policy, hp, _, hsaid⟩⟩
  have hpkeyed : p.IsKeyed ∧ IsValue p.value :=
    ⟨⟨hp.isString, by decide, by decide⟩, .string hblock.isString⟩
  have hone : IsDocument (IsObject [p]) "\x7b\"policy\": \"block\"\x7d" :=
    .bare ⟨_, .first_part _ (.close_now _ _), rfl⟩ (by decide)
  have htwo : IsDocument (IsObject [x, p]) "\x7b\"x\":null,\"policy\": \"block\"\x7d" :=
    .bare ⟨_, .first_part _ (.later_part _ (.close_now _ _)), rfl⟩ (by decide)
  have htwice : IsDocument (IsObject [p, p])
      "\x7b\"policy\": \"block\",\"policy\": \"block\"\x7d" :=
    .bare ⟨_, .first_part _ (.later_part _ (.close_now _ _)), rfl⟩ (by decide)
  have hsingle : IsDocument (IsArray [p.value]) "[\"block\"]" :=
    .bare ⟨_, .first_part _ (.close_now _ _), rfl⟩ (by decide)
  have hdistinct : Distinct [x, p] :=
    List.pairwise_pair.mpr fun f hf => absurd hf (hx f)
  have hbothfit : ∀ m ∈ [x, p] ++ [p], m.Fits := by
    simpa using ⟨hxfits, hpfits⟩
  obtain ⟨s, hs, hoverrides⟩ := hobject _ _ htwo (by simpa using ⟨hxfits, hpfits⟩) hdistinct
  obtain ⟨s', hs', hone'⟩ := hsame _ _ _ _ htwo hone hbothfit hdistinct
    ⟨[p], [x], [], List.Perm.swap p x [], .refl _, by simpa using hx⟩
  obtain rfl := Except.ok.inj (hs.symm.trans hs')
  have hzip : Field.all.zip [p.value] = [(.policy, p.value)] := rfl
  obtain ⟨t, ht, -, hobjects⟩ := harray _ _ hsingle (by decide) fun f v hfv => by
    rw [hzip, List.mem_singleton, Prod.mk.injEq] at hfv
    obtain ⟨rfl, rfl⟩ := hfv
    exact ⟨_, hsaid⟩
  have hgives : ∀ f v, Gives [p] f v ↔ (f, v) ∈ Field.all.zip [p.value] := by
    intro f v
    have hfield : p.Mentions f ↔ f = .policy :=
      ⟨fun hf => hf.unique hp, fun heq => heq ▸ hp⟩
    simp [hzip, Gives, hfield, eq_comm]
  have hagain := hobjects _ _ hone (by simpa using hpfits) (List.pairwise_singleton _ _) hgives
  obtain rfl := Except.ok.inj (hone'.symm.trans hagain)
  have hpolicy : s.policy = .block := by
    have hgiven := hoverrides.given .policy p.value ⟨p, by simp, hp, rfl⟩
    have hchoice := hgiven.unique hsaid
    simpa [Field.choice] using hchoice
  refine ⟨s, hs, hpolicy, hone', ht, ?_⟩
  exact hrepeated _ p p .policy _ htwice (by simpa using hpkeyed) (List.Sublist.refl _) hp hp

end Backpressure.Json
