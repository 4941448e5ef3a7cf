import Backpressure.Proofs.Documents
set_option autoImplicit false

/-!
# What is written as JSON is read back

Policies, session identities and settings are read from the text that they are written as. The
text of a value says the value, so that its reader takes it off the front of a longer text. The
text of settings is an object with every field, which leaves nothing of the defaults that it
overrides.
-/

namespace Backpressure

namespace Json

/-! ## Values -/

theorem plain_name (p : Policy) : p.name.toList.all isPlain = true := by
  cases p <;> decide

theorem says_policyText (p : Policy) : SaysPolicy p (policyText p).toList := by
  have htext : (policyText p).toList = '\x22' :: (p.name.toList ++ ['\x22']) := by
    simp [policyText]
  rw [htext]
  exact .string (spells_plain (plain_name p))

theorem reads_policy (p : Policy) : Reads readPolicy (policyText p).toList p :=
  (says_policyText p).reads

theorem reads_sessionId (i : SessionId) : Reads readSessionId (sessionIdText i).toList i := by
  have hlt : i.value.toNat < 0x1_0000_0000_0000_0000 := i.value.toNat_lt
  have hread : Reads (readInteger .unsigned64) (Decimal.natural i.value.toNat)
      i.value.toNat :=
    reads_natural hlt (by decide) (by simp only [Width.unsigned64]; omega)
  have hvalue : (⟨UInt64.ofNat (i.value.toNat : Int).toNat⟩ : SessionId) = i := by
    rw [Int.toNat_natCast, UInt64.ofNat_toNat]
  have hmade : Reads readSessionId (Decimal.natural i.value.toNat)
      ⟨UInt64.ofNat (i.value.toNat : Int).toNat⟩ :=
    hread.map fun z => (⟨UInt64.ofNat z.toNat⟩ : SessionId)
  rw [hvalue] at hmade
  rwa [sessionIdText, Decimal.text, String.toList_ofList]

/-- A member as it is written, with no blanks. -/
def written (key value : List Char) : Member := ⟨key, [], [], value⟩

theorem written_names {key : List Char} (h : key.all isPlain = true) (value : List Char) :
    (written key value).Names key :=
  ⟨spells_plain h, List.forall_mem_nil _, List.forall_mem_nil _⟩

theorem says_durationText (d : Duration) : SaysDuration d (durationText d).toList := by
  have htext : (durationText d).toList =
      '\x7b' :: ((written "secs".toList (Decimal.natural d.seconds)).text ++
        ',' :: ((written "nanos".toList (Decimal.natural d.subsecond)).text ++ ['\x7d'])) := by
    simp [durationText, Decimal.text, written, Member.text, Member.tail]
  have hparts : IsParts d d.seconds d.subsecond :=
    ⟨d.seconds_lt, Nat.lt_trans d.subsecond_lt (by decide), d.ofParts?_seconds_subsecond⟩
  rw [htext]
  exact .object hparts (written_names (by decide) _) rfl (written_names (by decide) _) rfl
    (.inl rfl) ⟨_, .first_part _ (.later_part _ (.close_now _ _)), rfl⟩

theorem says_timeoutText (timeout : Option Duration) :
    SaysTimeout timeout (timeoutText timeout).toList := by
  cases timeout with
  | none => exact .null
  | some d => exact .some (says_durationText d)

/-! ## Settings -/

/-- The text of a field's value says what it is. -/
theorem says_valueText (s : Settings) (f : Field) : f.Says (f.valueText s).toList s := by
  cases f with
  | policy => exact says_policyText s.policy
  | limit d => rw [Field.Says, Field.valueText, Decimal.signedText, String.toList_ofList]
  | logInterval => exact says_durationText s.logInterval
  | blockTimeout => exact says_timeoutText s.blockTimeout

theorem plain_key (f : Field) : f.key.toList.all isPlain = true := by
  cases f with
  | limit d => cases d <;> decide
  | policy | logInterval | blockTimeout => decide

/-- A field as it is written. -/
def writtenField (s : Settings) (f : Field) : Member := written f.key.toList (f.valueText s).toList

theorem mentions_writtenField_iff {s : Settings} {f g : Field} :
    (writtenField s f).Mentions g ↔ f = g := by
  rw [Member.mentions_iff (plain_key f), writtenField, written, Field.ofKey?_key, Option.some_inj]

theorem writtenField_fits (s : Settings) (f : Field) : (writtenField s f).Fits :=
  ⟨List.forall_mem_nil _, List.forall_mem_nil _,
    .inl ⟨f, mentions_writtenField_iff.mpr rfl, s, says_valueText s f⟩⟩

theorem isObject_settingsText (s : Settings) :
    IsObject (Field.all.map (writtenField s)) (settingsText s).toList := by
  have hmember (f : Field) : (memberText s f).toList = (writtenField s f).text := by
    simp [memberText, writtenField, written, Member.text, Member.tail]
  refine ⟨_, listed_intercalate '\x7d' _, ?_⟩
  rw [settingsText, String.toList_append, String.toList_append, String.toList_intercalate,
    List.map_map, List.map_map]
  simp only [Function.comp_def, hmember]
  rfl

/-- Settings override all that was there before with what they are. -/
theorem overrides_self (s : Settings) :
    Overrides (Gives (Field.all.map (writtenField s))) {} s := by
  refine ⟨fun f value hgiven => ?_, fun f hnone => ?_⟩
  · obtain ⟨m, hm, hf, rfl⟩ := hgiven
    obtain ⟨g, -, rfl⟩ := List.mem_map.mp hm
    obtain rfl := mentions_writtenField_iff.mp hf
    exact says_valueText s g
  · have hmem : writtenField s f ∈ Field.all.map (writtenField s) :=
      List.mem_map_of_mem f.mem_all
    exact absurd ⟨_, hmem, mentions_writtenField_iff.mpr rfl, rfl⟩ (hnone _)

theorem reads_settings (s : Settings) : Reads readSettings (settingsText s).toList s := by
  have hfits : ∀ m ∈ Field.all.map (writtenField s), m.Fits :=
    List.forall_mem_map.mpr fun f _ => writtenField_fits s f
  have hnodup : Field.all.Nodup := by decide
  have hdistinct : Distinct (Field.all.map (writtenField s)) := by
    refine List.pairwise_map.mpr (hnodup.imp fun hne f hf hg => hne ?_)
    rw [mentions_writtenField_iff.mp hf, mentions_writtenField_iff.mp hg]
  obtain ⟨t, hread, hoverrides⟩ := reads_object (isObject_settingsText s) hfits hdistinct
  obtain rfl := hoverrides.unique (overrides_self s)
  exact hread

/-- What is read back as what it is is not written like anything else. -/
theorem injective_of_read_back {α : Type} {text : α → String}
    {parse : String → Except Fault α} (h : ∀ a, parse (text a) = .ok a) :
    Function.Injective text := by
  intro a b heq
  apply Except.ok.inj
  calc Except.ok a = parse (text a) := (h a).symm
    _ = parse (text b) := congrArg parse heq
    _ = Except.ok b := h b

/-- Whatever the settings, and whatever policy or session identity: what they are written as is
read back as what they are, so no two of them are written alike. -/
theorem written_is_read_back :
    (∀ s, parseSettings (settingsText s) = .ok s) ∧
      (∀ p, parsePolicy (policyText p) = .ok p) ∧
      (∀ i, parseSessionId (sessionIdText i) = .ok i) ∧
      Function.Injective settingsText ∧ Function.Injective policyText ∧
      Function.Injective sessionIdText := by
  have hsettings (s : Settings) : parseSettings (settingsText s) = .ok s :=
    document_of_reads (reads_settings s)
  have hpolicy (p : Policy) : parsePolicy (policyText p) = .ok p :=
    document_of_reads (reads_policy p)
  have hsessionId (i : SessionId) : parseSessionId (sessionIdText i) = .ok i :=
    document_of_reads (reads_sessionId i)
  exact ⟨hsettings, hpolicy, hsessionId, injective_of_read_back hsettings,
    injective_of_read_back hpolicy, injective_of_read_back hsessionId⟩

end Json

end Backpressure
