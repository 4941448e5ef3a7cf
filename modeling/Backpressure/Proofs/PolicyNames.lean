import Backpressure.Json.Settings
import Backpressure.Policy.Parse
import Backpressure.Proofs.Spelling
import Mathlib.Data.List.Forall2
set_option autoImplicit false

/-!
# Names of policies

A policy is named by hand or in JSON. By hand blanks around the name do not matter, nor does the
case of ASCII letters, nor whether `_` or `-` is written; but a letter that is none of ASCII is
never taken for one, even if its small form is. What is no name is reported without the blanks
around it and else as it was given. In JSON only the canonical name will do, however it is spelled
between the quotes, so every name that is read there is read by hand as well.
-/

namespace Backpressure

/-! ## Trimming -/

namespace Text

/-- Nothing but blanks. -/
def Blanks (ws : List Char) : Prop := ∀ c ∈ ws, isBlank c = true

instance (ws : List Char) : Decidable (Blanks ws) :=
  decidable_of_iff (ws.all isBlank = true) List.all_eq_true

/-- No blank at the beginning and none at the end. -/
structure Trimmed (word : List Char) : Prop where
  head : ∀ c ∈ word.head?, isBlank c = false
  last : ∀ c ∈ word.getLast?, isBlank c = false

variable {cs word before after : List Char}

/-- What is taken off the front of a text are blanks, and no blank is left there. -/
theorem exists_blanks_front (cs : List Char) :
    ∃ ws, Blanks ws ∧ cs = ws ++ cs.dropWhile isBlank ∧
      ∀ c ∈ (cs.dropWhile isBlank).head?, isBlank c = false := by
  refine ⟨cs.takeWhile isBlank, fun _ => List.mem_takeWhile_imp,
    List.takeWhile_append_dropWhile.symm, fun c hc => ?_⟩
  rw [← List.find?_not_eq_head?_dropWhile] at hc
  simpa using List.find?_some hc

/-- What is taken off the end of a text are blanks, and no blank is left there. -/
theorem exists_blanks_back (cs : List Char) :
    ∃ ws, Blanks ws ∧ cs = trimRight cs ++ ws ∧
      ∀ c ∈ (trimRight cs).getLast?, isBlank c = false := by
  obtain ⟨ws, hws, heq, hhead⟩ := exists_blanks_front cs.reverse
  refine ⟨ws.reverse, fun c hc => hws c (List.mem_reverse.mp hc), ?_, ?_⟩
  · rw [trimRight, ← List.reverse_append, ← heq, List.reverse_reverse]
  · rw [trimRight, List.getLast?_reverse]
    exact hhead

theorem dropWhile_append_blanks (h : Blanks before) (hhead : ∀ c ∈ cs.head?, isBlank c = false) :
    (before ++ cs).dropWhile isBlank = cs := by
  rw [List.dropWhile_append_of_pos h]
  cases cs with
  | nil => rfl
  | cons c cs => exact List.dropWhile_cons_of_neg (by simp [hhead c rfl])

theorem trimRight_append_blanks (h : Blanks after)
    (hlast : ∀ c ∈ word.getLast?, isBlank c = false) : trimRight (word ++ after) = word := by
  have hafter : Blanks after.reverse := fun c hc => h c (List.mem_reverse.mp hc)
  have hhead : ∀ c ∈ word.reverse.head?, isBlank c = false := by
    rwa [List.head?_reverse]
  rw [trimRight, List.reverse_append, dropWhile_append_blanks hafter hhead, List.reverse_reverse]

/-- Taking the blanks off a text leaves what has blanks around it and none at its ends. -/
theorem trim_eq_iff :
    trim cs = word ↔
      Trimmed word ∧
        ∃ before after, Blanks before ∧ Blanks after ∧ cs = before ++ word ++ after := by
  constructor
  · rintro rfl
    obtain ⟨before, hbefore, hfront, hhead⟩ := exists_blanks_front cs
    obtain ⟨after, hafter, hback, hlast⟩ := exists_blanks_back (cs.dropWhile isBlank)
    refine ⟨⟨fun c hc => hhead c ?_, hlast⟩, before, after, hbefore, hafter, ?_⟩
    · rw [hback, List.head?_append]
      exact Option.or_eq_some_iff.mpr (.inl hc)
    · rw [List.append_assoc]
      exact hfront.trans (congrArg (before ++ ·) hback)
  · rintro ⟨⟨hhead, hlast⟩, before, after, hbefore, hafter, rfl⟩
    cases word with
    | nil =>
      have hblanks : Blanks (before ++ after) := by
        intro c hc
        exact (List.mem_append.mp hc).elim (hbefore c) (hafter c)
      have hnone : (before ++ after).dropWhile isBlank = [] :=
        List.dropWhile_eq_nil_iff.mpr hblanks
      rw [List.append_nil, trim, hnone]
      rfl
    | cons c word =>
      have hfront : (before ++ (c :: word ++ after)).dropWhile isBlank = c :: word ++ after :=
        dropWhile_append_blanks hbefore hhead
      rw [List.append_assoc, trim, hfront, trimRight_append_blanks hafter hlast]

theorem trim_eq_nil_iff : trim cs = [] ↔ Blanks cs := by
  rw [trim_eq_iff]
  constructor
  · rintro ⟨-, before, after, hbefore, hafter, rfl⟩ c hc
    rw [List.append_nil] at hc
    exact (List.mem_append.mp hc).elim (hbefore c) (hafter c)
  · intro h
    exact ⟨⟨nofun, nofun⟩, cs, [], h, nofun, by simp⟩

theorem Trimmed.trim_eq (h : Trimmed word) : trim word = word :=
  trim_eq_iff.mpr ⟨h, [], [], nofun, nofun, by simp⟩

end Text

/-! ## Names written by hand -/

namespace Policy

/-- A character of a canonical name may be written so: as it is, as the capital of an ASCII letter,
or as `-` for `_`. -/
def Stands (c written : Char) : Prop :=
  written = c ∨ ('a' ≤ c ∧ c ≤ 'z' ∧ written.toNat + 32 = c.toNat) ∨ c = '_' ∧ written = '-'

/-- A word is the canonical name of a policy, apart from the case of ASCII letters and from `-` in
place of `_`. -/
def Matches (p : Policy) (word : List Char) : Prop := List.Forall₂ Stands p.name.toList word

/-- The characters that canonical names are made of. -/
def IsNameChar (c : Char) : Prop := 'a' ≤ c ∧ c ≤ 'z' ∨ c = '_'

instance (c : Char) : Decidable (IsNameChar c) := inferInstanceAs (Decidable (_ ∨ _))

/-- The characters of names by their numbers. -/
theorem isNameChar_iff {c : Char} :
    IsNameChar c ↔ 97 ≤ c.toNat ∧ c.toNat ≤ 122 ∨ c.toNat = 95 := by
  have hle : ∀ d e : Char, d ≤ e ↔ d.toNat ≤ e.toNat := fun _ _ => UInt32.le_iff_toNat_le
  rw [IsNameChar, hle 'a' c, hle c 'z', ← Char.toNat_inj]
  rfl

/-- How characters of names may be written, by their numbers. -/
theorem stands_iff {c written : Char} :
    Stands c written ↔
      written.toNat = c.toNat ∨
        (97 ≤ c.toNat ∧ c.toNat ≤ 122 ∧ written.toNat + 32 = c.toNat) ∨
          c.toNat = 95 ∧ written.toNat = 45 := by
  have hle : ∀ d e : Char, d ≤ e ↔ d.toNat ≤ e.toNat := fun _ _ => UInt32.le_iff_toNat_le
  rw [Stands, hle 'a' c, hle c 'z', ← Char.toNat_inj, ← Char.toNat_inj, ← Char.toNat_inj]
  rfl

theorem isNameChar_of_mem {p : Policy} {c : Char} (h : c ∈ p.name.toList) : IsNameChar c := by
  have hall : ∀ p ∈ all, p.name.toList.all (decide <| IsNameChar ·) = true := by decide
  exact of_decide_eq_true (List.all_eq_true.mp (hall p p.mem_all) c h)

/-- The capitals of ASCII are made small, all other characters stay as they are. -/
theorem toNat_toLower (c : Char) :
    c.toLower.toNat = if 65 ≤ c.toNat ∧ c.toNat ≤ 90 then c.toNat + 32 else c.toNat := by
  have hle : ∀ d e : Char, d.val ≤ e.val ↔ d.toNat ≤ e.toNat := fun _ _ => UInt32.le_iff_toNat_le
  unfold Char.toLower
  split
  · rename_i hcapital
    rw [if_pos ⟨(hle 'A' c).mp hcapital.1, (hle c 'Z').mp hcapital.2⟩]
    have hsmall : c.toNat ≤ 90 := (hle c 'Z').mp hcapital.2
    change (c.val + 32).toNat = c.val.toNat + 32
    rw [UInt32.toNat_add]
    have : c.val.toNat ≤ 90 := hsmall
    have : (32 : UInt32).toNat = 32 := rfl
    omega
  · rename_i hother
    rw [if_neg fun h => hother ⟨(hle 'A' c).mpr h.1, (hle c 'Z').mpr h.2⟩]

/-- A character is looked up as the one that it stands for. -/
theorem canonicalChar_eq_iff {c written : Char} (h : IsNameChar c) :
    canonicalChar written = c ↔ Stands c written := by
  have hdash : written = '-' ↔ written.toNat = 45 := Char.toNat_inj.symm
  have hlooked : (canonicalChar written).toNat =
      if written.toNat = 45 then 95
      else if 65 ≤ written.toNat ∧ written.toNat ≤ 90 then written.toNat + 32
      else written.toNat := by
    unfold canonicalChar
    simp only [hdash]
    split
    · rfl
    · exact toNat_toLower written
  rw [isNameChar_iff] at h
  rw [stands_iff, ← Char.toNat_inj, hlooked]
  split <;> (try split) <;> omega

theorem map_canonicalChar_eq_iff {name word : List Char} (h : ∀ c ∈ name, IsNameChar c) :
    word.map canonicalChar = name ↔ List.Forall₂ Stands name word := by
  induction name generalizing word with
  | nil => simp
  | cons c name ih =>
    obtain ⟨hc, hname⟩ := List.forall_mem_cons.mp h
    cases word with
    | nil => simp
    | cons d word =>
      rw [List.map_cons, List.cons.injEq, List.forall₂_cons, canonicalChar_eq_iff hc, ih hname]

theorem ofName?_eq_some_iff {p : Policy} {text : List Char} :
    ofName? text = some p ↔ text = p.name.toList := by
  constructor
  · intro h
    rw [ofName?] at h
    have hname := List.find?_some h
    exact (beq_iff_eq.mp hname).symm
  · rintro rfl
    exact ofName?_name p

/-- What is looked up for a word is the policy whose name it matches. -/
theorem ofName?_map_eq_some_iff {p : Policy} {word : List Char} :
    ofName? (word.map canonicalChar) = some p ↔ p.Matches word := by
  rw [ofName?_eq_some_iff, map_canonicalChar_eq_iff fun _ => isNameChar_of_mem]
  rfl

/-- No blank stands for a character of a canonical name. -/
theorem Stands.isBlank_eq_false {c written : Char} (h : Stands c written) (hc : IsNameChar c) :
    Text.isBlank written = false := by
  rw [isNameChar_iff] at hc
  rw [stands_iff] at h
  rw [Bool.eq_false_iff]
  intro hblank
  simp only [Text.isBlank, Text.inRanges, Text.blankRanges, List.any_cons, List.any_nil,
    Bool.or_eq_true, Bool.and_eq_true, decide_eq_true_eq, Bool.false_eq_true, or_false] at hblank
  omega

/-- A word that is a name has no blank at its ends. -/
theorem Matches.trimmed {p : Policy} {word : List Char} (h : p.Matches word) :
    Text.Trimmed word := by
  have hblank : ∀ w ∈ word, Text.isBlank w = false := by
    have hname : ∀ c ∈ p.name.toList, IsNameChar c := fun _ => isNameChar_of_mem
    unfold Matches at h
    generalize p.name.toList = name at h hname
    induction h with
    | nil => exact nofun
    | cons first _ ih =>
      obtain ⟨hc, hname⟩ := List.forall_mem_cons.mp hname
      exact List.forall_mem_cons.mpr ⟨first.isBlank_eq_false hc, ih hname⟩
  exact ⟨fun c hc => hblank c (List.mem_of_mem_head? hc),
    fun c hc => hblank c (List.mem_of_mem_getLast? hc)⟩

theorem not_matches_nil (p : Policy) : ¬ p.Matches [] := by
  intro h
  have hname : p.name.toList = [] := List.forall₂_nil_right_iff.mp h
  cases p <;> exact absurd hname (by decide)

section Parse

variable {text : String} {p : Policy}

theorem parse_eq_ok_iff : parse text = .ok p ↔ p.Matches (Text.trim text.toList) := by
  rw [← ofName?_map_eq_some_iff, parse]
  cases Text.trim text.toList with
  | nil =>
    have hnone : ofName? ([].map canonicalChar) ≠ some p :=
      fun h => not_matches_nil p (ofName?_map_eq_some_iff.mp h)
    exact ⟨nofun, fun h => absurd h hnone⟩
  | cons c word =>
    dsimp only
    cases ofName? ((c :: word).map canonicalChar) <;> simp

theorem parse_eq_missing_iff : parse text = .error .missing ↔ Text.Blanks text.toList := by
  rw [← Text.trim_eq_nil_iff, parse]
  cases Text.trim text.toList with
  | nil => simp
  | cons c word =>
    dsimp only
    cases ofName? ((c :: word).map canonicalChar) <;> simp

theorem parse_eq_unknown_iff {name : String} :
    parse text = .error (.unknown name) ↔
      name.toList = Text.trim text.toList ∧ name.toList ≠ [] ∧
        ∀ p : Policy, ¬ p.Matches name.toList := by
  have hnames : ∀ word : List Char,
      (∀ p : Policy, ¬ p.Matches word) ↔ ofName? (word.map canonicalChar) = none := by
    intro word
    rw [Option.eq_none_iff_forall_ne_some]
    exact forall_congr' fun p => not_congr ofName?_map_eq_some_iff.symm
  rw [hnames, parse]
  cases Text.trim text.toList with
  | nil => simp +contextual
  | cons c word =>
    dsimp only
    cases hfound : ofName? ((c :: word).map canonicalChar) with
    | some p =>
      simp only [reduceCtorEq, false_iff]
      rintro ⟨hname, -, hnone⟩
      rw [hname, hfound] at hnone
      cases hnone
    | none =>
      simp only [Except.error.injEq, PolicyFault.unknown.injEq]
      constructor
      · rintro rfl
        rw [String.toList_ofList]
        exact ⟨rfl, List.cons_ne_nil c word, hfound⟩
      · rintro ⟨hname, -, -⟩
        rw [← hname, String.ofList_toList]

/-- An unknown name is given as it was, without the blanks around it, and is unknown again. -/
theorem parse_of_unknown {name : String} (h : parse text = .error (.unknown name)) :
    parse name = .error (.unknown name) := by
  obtain ⟨hname, hsome, hnone⟩ := parse_eq_unknown_iff.mp h
  have htrimmed : Text.Trimmed name.toList := (Text.trim_eq_iff.mp hname.symm).1
  exact parse_eq_unknown_iff.mpr ⟨htrimmed.trim_eq.symm, hsome, hnone⟩

end Parse

/-! ## Names in JSON -/

section Json

open Json (Blanks Spells parsePolicy policyNamed readPolicy)

variable {p : Policy} {before after raw name : List Char}

theorem policyNamed_eq_ok_iff : policyNamed name = .ok p ↔ name = p.name.toList := by
  rw [← ofName?_eq_some_iff, policyNamed]
  cases ofName? name <;> simp

/-- A policy that is read behind a quote is the one whose name is spelled there. -/
theorem readPolicy_eq_ok_iff (hbefore : Blanks before) (hraw : Spells raw name)
    {rest rest' : List Char} :
    readPolicy (before ++ '\x22' :: (raw ++ '\x22' :: rest)) = .ok (p, rest') ↔
      name = p.name.toList ∧ rest' = rest := by
  rw [readPolicy, Json.skipBlanks_append hbefore, Json.skipBlanks_cons (by decide)]
  simp only [bind, Except.bind, Json.readString_append hraw, ← policyNamed_eq_ok_iff]
  cases policyNamed name <;> simp [pure, Except.pure, eq_comm]

/-- A string stands for the policy whose name it spells. -/
theorem parsePolicy_eq_ok_iff (hbefore : Blanks before) (hafter : Blanks after)
    (hraw : Spells raw name) :
    parsePolicy (String.ofList (before ++ '\x22' :: (raw ++ '\x22' :: after))) = .ok p ↔
      name = p.name.toList := by
  rw [parsePolicy, Json.document_eq_ok_iff, String.toList_ofList]
  constructor
  · rintro ⟨rest, hread, -⟩
    exact ((readPolicy_eq_ok_iff hbefore hraw).mp hread).1
  · intro hname
    exact ⟨after, (readPolicy_eq_ok_iff hbefore hraw).mpr ⟨hname, rfl⟩, hafter⟩

/-- A policy that is read as a string has its canonical name spelled there. -/
theorem spelled_of_parsePolicy {text : String} (h : parsePolicy text = .ok p)
    (hquote : (Json.skipBlanks text.toList).head? = some '\x22') :
    ∃ before raw after, Blanks before ∧ Blanks after ∧ Spells raw p.name.toList ∧
      text.toList = before ++ '\x22' :: (raw ++ '\x22' :: after) := by
  obtain ⟨after, hread, hafter⟩ := Json.document_eq_ok_iff.mp h
  obtain ⟨before, hbefore, htext⟩ := Json.exists_blanks text.toList
  obtain ⟨string, hstring⟩ := List.head?_eq_some_iff.mp hquote
  rw [hstring] at htext
  cases hname : Json.readString string with
  | error e =>
    have herror : readPolicy text.toList = .error e := by
      rw [readPolicy, hstring]
      simp only [bind, Except.bind, hname]
    rw [herror] at hread
    cases hread
  | ok result =>
    obtain ⟨name, rest⟩ := result
    obtain ⟨raw, hraw, rfl⟩ := Json.spells_of_readString hname
    rw [htext] at hread
    obtain ⟨rfl, rfl⟩ := (readPolicy_eq_ok_iff hbefore hraw).mp hread
    exact ⟨before, raw, after, hbefore, hafter, hraw, htext⟩

/-- A policy is taken from exactly the texts that are its canonical name with blanks around it,
up to the case of ASCII letters and `-` in place of `_`. No policy is given exactly in a text of
blanks, and every other text gives an unknown name: itself without the blanks around it and else
unchanged, which is unknown again in the same way. A JSON string is read as a policy exactly if
it spells the canonical name, and then what it spells is taken for the same policy. -/
theorem parse_follows_grammar :
    (∀ text p, parse text = .ok p ↔
        ∃ before word after, Text.Blanks before ∧ Text.Blanks after ∧
          List.Forall₂ Stands p.name.toList word ∧ text.toList = before ++ word ++ after) ∧
      (∀ text, parse text = .error .missing ↔ Text.Blanks text.toList) ∧
      (∀ text name, parse text = .error (.unknown name) ↔
        name.toList ≠ [] ∧ Text.Trimmed name.toList ∧
          (∀ p : Policy, ¬ List.Forall₂ Stands p.name.toList name.toList) ∧
            ∃ before after, Text.Blanks before ∧ Text.Blanks after ∧
              text.toList = before ++ name.toList ++ after) ∧
      (∀ text name, parse text = .error (.unknown name) →
        parse name = .error (.unknown name)) ∧
      (∀ before raw name after p, Blanks before → Blanks after → Spells raw name →
        let text := String.ofList (before ++ '\x22' :: (raw ++ '\x22' :: after))
        (parsePolicy text = .ok p ↔ name = p.name.toList) ∧
          (parsePolicy text = .ok p → parse (String.ofList name) = .ok p)) ∧
      ∀ text p, parsePolicy text = .ok p →
        (Json.skipBlanks text.toList).head? = some '\x22' →
          ∃ before raw after, Blanks before ∧ Blanks after ∧ Spells raw p.name.toList ∧
            text.toList = before ++ '\x22' :: (raw ++ '\x22' :: after) := by
  refine ⟨fun text p => ?_, fun text => parse_eq_missing_iff, fun text name => ?_,
    fun text name => parse_of_unknown, fun before raw name after p hbefore hafter hraw => ?_,
    fun text p => spelled_of_parsePolicy⟩
  · rw [parse_eq_ok_iff]
    constructor
    · intro hmatches
      obtain ⟨-, before, after, hbefore, hafter, htext⟩ := Text.trim_eq_iff.mp (Eq.refl _)
      exact ⟨before, _, after, hbefore, hafter, hmatches, htext⟩
    · rintro ⟨before, word, after, hbefore, hafter, hmatches, htext⟩
      have htrim : Text.trim text.toList = word := Text.trim_eq_iff.mpr
        ⟨Matches.trimmed hmatches, before, after, hbefore, hafter, htext⟩
      rw [htrim]
      exact hmatches
  · rw [parse_eq_unknown_iff, eq_comm, Text.trim_eq_iff]
    constructor
    · rintro ⟨⟨htrimmed, haround⟩, hsome, hnone⟩
      exact ⟨hsome, htrimmed, hnone, haround⟩
    · rintro ⟨hsome, htrimmed, hnone, haround⟩
      exact ⟨⟨htrimmed, haround⟩, hsome, hnone⟩
  · intro text
    have hread : parsePolicy text = .ok p ↔ name = p.name.toList :=
      parsePolicy_eq_ok_iff hbefore hafter hraw
    refine ⟨hread, fun hpolicy => ?_⟩
    have hname := hread.mp hpolicy
    have hmatches : p.Matches p.name.toList :=
      ofName?_map_eq_some_iff.mp (by rw [map_canonicalChar_name, ofName?_name])
    rw [parse_eq_ok_iff, String.toList_ofList, hname, hmatches.trimmed.trim_eq]
    exact hmatches

/-- A name is taken with its capitals and dashes, but not with the sign for kelvin, whose small form
is an ASCII letter; a JSON string may spell its name by numbers. -/
theorem parse_follows_grammar_kelvin :
    parse "\u2003Log-And_BLOCK " = .ok .logAndBlock ∧
      parse "bloc\u212a" = .error (.unknown "bloc\u212a") ∧
      Json.parsePolicy " \"\\u006cog\"" = .ok .log ∧ parse "log" = .ok .log := by
  obtain ⟨hok, -, -, hagain, hjson, -⟩ := parse_follows_grammar
  have hlog : Spells "\\u006cog".toList "log".toList :=
    .cons (.code (n := 0x6c) (by decide) (by decide) (by decide)) (Json.spells_plain (by decide))
  obtain ⟨hread, hsame⟩ := hjson [' '] _ _ [] .log (by decide) nofun hlog
  have hmatches : Matches .logAndBlock "Log-And_BLOCK".toList :=
    ofName?_map_eq_some_iff.mp (by decide)
  exact ⟨(hok _ _).mpr ⟨['\u2003'], _, [' '], by decide, by decide, hmatches, rfl⟩,
    hagain " bloc\u212a" _ (by decide +kernel), hread.mpr rfl, hsame (hread.mpr rfl)⟩

end Json

end Policy

end Backpressure
