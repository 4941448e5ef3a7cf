import Backpressure.Proofs.Numerals
import Mathlib.Data.List.TakeWhile
set_option autoImplicit false

/-!
# How strings are spelled

A string can be spelled in many ways, since a character may stand for itself or be escaped.
`Spells` says which texts between quotes stand for which string. A reader of strings takes such a
text off the front of a longer one, and it takes nothing else: it is complete and sound for the
spellings. Skipping is complete for `IsString`, which does not ask whether surrogates pair up, so
that a text between quotes ends in one place only, however it is gone through.
-/

namespace Backpressure.Json

/-! ## Blanks -/

/-- Nothing but blanks. -/
def Blanks (ws : List Char) : Prop := ∀ c ∈ ws, isBlank c = true

instance (ws : List Char) : Decidable (Blanks ws) :=
  decidable_of_iff (ws.all isBlank = true) List.all_eq_true

theorem skipBlanks_append {ws : List Char} (h : Blanks ws) (cs : List Char) :
    skipBlanks (ws ++ cs) = skipBlanks cs := List.dropWhile_append_of_pos h

/-- What is skipped in front of a text are blanks. -/
theorem exists_blanks (cs : List Char) : ∃ ws, Blanks ws ∧ cs = ws ++ skipBlanks cs :=
  ⟨cs.takeWhile isBlank, fun _ => List.mem_takeWhile_imp, List.takeWhile_append_dropWhile.symm⟩

/-- A document has nothing but blanks behind its value. -/
theorem document_eq_ok_iff {α : Type} {read : Step α} {text : String} {a : α} :
    document read text = .ok a ↔ ∃ rest, read text.toList = .ok (a, rest) ∧ Blanks rest := by
  have hblanks : ∀ rest, (skipBlanks rest).isEmpty = true ↔ Blanks rest := by
    intro rest
    rw [List.isEmpty_iff, skipBlanks, List.dropWhile_eq_nil_iff]
    rfl
  unfold document
  cases hread : read text.toList with
  | error e => simp
  | ok result =>
    obtain ⟨b, rest⟩ := result
    simp only [Except.ok.injEq, Prod.mk.injEq]
    split
    · rename_i hrest
      constructor
      · rintro h
        cases h
        exact ⟨rest, ⟨rfl, rfl⟩, (hblanks rest).mp hrest⟩
      · rintro ⟨_, ⟨rfl, _⟩, _⟩
        rfl
    · rename_i hrest
      constructor
      · intro h
        cases h
      · rintro ⟨_, ⟨_, rfl⟩, h⟩
        exact absurd ((hblanks rest).mpr h) hrest

/-! ## Spellings -/

/-- The character stands for itself between quotes. -/
def isPlain (c : Char) : Bool := c != '\x22' && c != '\\' && ' ' ≤ c

/-- A character is written so between quotes: as itself, as an escape of one letter, as its number
or, beyond U+FFFF, as the numbers of two surrogates. -/
inductive Writes : Char → List Char → Prop where
  | plain {c : Char} (plain : isPlain c = true) : Writes c [c]
  | letter {c e : Char} (escape : letterEscape? e = some c) : Writes c ['\\', e]
  | code {a b c d : Char} {n : Nat} (number : hexNumber? a b c d = some n)
      (notLeading : isLeading n = false) (notTrailing : isTrailing n = false) :
      Writes (Char.ofNat n) ['\\', 'u', a, b, c, d]
  | pair {a b c d e f g h : Char} {n m : Nat} (first : hexNumber? a b c d = some n)
      (second : hexNumber? e f g h = some m) (leading : isLeading n = true)
      (trailing : isTrailing m = true) :
      Writes (paired n m) ['\\', 'u', a, b, c, d, '\\', 'u', e, f, g, h]

/-- A text between quotes stands for a string. -/
inductive Spells : List Char → List Char → Prop where
  | nil : Spells [] []
  | cons {c : Char} {lexeme raw name : List Char} (first : Writes c lexeme)
      (others : Spells raw name) : Spells (lexeme ++ raw) (c :: name)

/-- A text between quotes has no characters but those that stand for themselves and escapes. -/
inductive IsString : List Char → Prop where
  | nil : IsString []
  | plain {c : Char} {raw : List Char} (plain : isPlain c = true) (others : IsString raw) :
      IsString (c :: raw)
  | letter {c e : Char} {raw : List Char} (escape : letterEscape? e = some c)
      (others : IsString raw) : IsString ('\\' :: e :: raw)
  | code {a b c d : Char} {n : Nat} {raw : List Char} (number : hexNumber? a b c d = some n)
      (others : IsString raw) : IsString ('\\' :: 'u' :: a :: b :: c :: d :: raw)

variable {c : Char} {cs raw name rest : List Char}

theorem Writes.append_isString {lexeme : List Char} (h : Writes c lexeme) (hraw : IsString raw) :
    IsString (lexeme ++ raw) := by
  cases h with
  | plain hplain => exact .plain hplain hraw
  | letter hescape => exact .letter hescape hraw
  | code hnumber _ _ => exact .code hnumber hraw
  | pair hfirst hsecond _ _ => exact .code hfirst (.code hsecond hraw)

theorem Spells.isString (h : Spells raw name) : IsString raw := by
  induction h with
  | nil => exact .nil
  | cons first _ ih => exact first.append_isString ih

/-- What is plain spells itself. -/
theorem spells_plain (h : cs.all isPlain = true) : Spells cs cs := by
  induction cs with
  | nil => exact .nil
  | cons c cs ih =>
    rw [List.all_cons, Bool.and_eq_true] at h
    exact .cons (.plain h.1) (ih h.2)

/-! ## Skipping -/

theorem letterEscape?_u : letterEscape? 'u' = none := by decide

/-- The escape of one letter is none that begins a number. -/
theorem ne_u_of_letterEscape? {e : Char} (h : letterEscape? e = some c) : e ≠ 'u' := by
  rintro rfl
  rw [letterEscape?_u] at h
  cases h

theorem skipString_plain (h : isPlain c = true) (rest : List Char) :
    skipString (c :: rest) = skipString rest := by
  simp only [isPlain, Bool.and_eq_true, bne_iff_ne, decide_eq_true_eq] at h
  obtain ⟨⟨hquote, hescape⟩, hcontrol⟩ := h
  rw [skipString.eq_def]
  split
  · contradiction
  · rename_i heq
    exact absurd (List.cons.inj heq).1 hescape
  · rename_i heq
    exact absurd (List.cons.inj heq).1 hescape
  · rename_i heq
    cases heq
    simp [hquote, hescape, Char.not_lt.mpr hcontrol]

theorem skipString_letter {e : Char} (h : letterEscape? e = some c) (rest : List Char) :
    skipString ('\\' :: e :: rest) = skipString rest := by
  have hu : e ≠ 'u' := ne_u_of_letterEscape? h
  rw [skipString.eq_def]
  split
  · contradiction
  · rename_i heq
    cases heq
    exact absurd rfl hu
  · rename_i heq
    cases heq
    rw [h]
    rfl
  · rename_i hne heq
    cases heq
    exact (hne _ _ rfl rfl).elim

/-- A string is skipped up to its closing quote. -/
theorem skipString_append (h : IsString raw) (rest : List Char) :
    skipString (raw ++ '\x22' :: rest) = .ok rest := by
  induction h with
  | nil => rfl
  | plain hplain _ ih => exact (skipString_plain hplain _).trans ih
  | letter hescape _ ih => exact (skipString_letter hescape _).trans ih
  | @code a b c d n raw hnumber _ ih =>
    have hsome : (hexNumber? a b c d).isSome = true := Option.isSome_of_eq_some hnumber
    exact (if_pos hsome).trans ih

/-- A text between quotes ends in one place. -/
theorem IsString.append_inj {raw' rest' : List Char} (h : IsString raw) (h' : IsString raw')
    (heq : raw ++ '\x22' :: rest = raw' ++ '\x22' :: rest') : raw = raw' ∧ rest = rest' := by
  have hskip := skipString_append h rest
  rw [heq, skipString_append h' rest'] at hskip
  obtain rfl := Except.ok.inj hskip
  exact ⟨List.append_cancel_right heq, rfl⟩

/-! ## Reading -/

theorem readChar_plain (h : isPlain c = true) (rest : List Char) :
    readChar (c :: rest) = .ok (some c, rest) := by
  simp only [isPlain, Bool.and_eq_true, bne_iff_ne, decide_eq_true_eq] at h
  obtain ⟨⟨hquote, hescape⟩, hcontrol⟩ := h
  unfold readChar
  split
  · contradiction
  · rename_i heq
    exact absurd (List.cons.inj heq).1 hescape
  · rename_i heq
    exact absurd (List.cons.inj heq).1 hescape
  · rename_i heq
    cases heq
    simp [hquote, hescape, Char.not_lt.mpr hcontrol]

theorem readChar_append {lexeme : List Char} (h : Writes c lexeme) (rest : List Char) :
    readChar (lexeme ++ rest) = .ok (some c, rest) := by
  cases h with
  | plain hplain => exact readChar_plain hplain rest
  | @letter _ e hescape =>
    have hu : e ≠ 'u' := ne_u_of_letterEscape? hescape
    simp only [List.cons_append, List.nil_append]
    unfold readChar
    split
    · contradiction
    · rename_i heq
      cases heq
      exact absurd rfl hu
    · rename_i heq
      cases heq
      rw [hescape]
    · rename_i hne heq
      cases heq
      exact (hne _ _ rfl rfl).elim
  | code hnumber hleading htrailing =>
    simp [readChar, hnumber, hleading, htrailing]
  | @pair _ _ _ _ _ _ _ _ n m hfirst hsecond hleading htrailing =>
    have hnot : isTrailing n = false := by
      simp only [isLeading, isTrailing, Bool.and_eq_true, Bool.and_eq_false_iff, decide_eq_true_eq,
        decide_eq_false_iff_not] at hleading ⊢
      omega
    simp [readChar, hfirst, hsecond, hnot, hleading, htrailing]

/-- A spelling is read as the string that it stands for. -/
theorem readChars_append (h : Spells raw name) {fuel : Nat} (hfuel : raw.length < fuel)
    (rest : List Char) : readChars fuel (raw ++ '\x22' :: rest) = .ok (name, rest) := by
  induction h generalizing fuel with
  | nil =>
    cases fuel with
    | zero => cases hfuel
    | succ fuel => rfl
  | @cons c lexeme raw name first _ ih =>
    cases fuel with
    | zero => cases hfuel
    | succ fuel =>
      have hlexeme : 0 < lexeme.length := by
        cases first <;> exact Nat.succ_pos _
      have hlength : raw.length < fuel := by
        rw [List.length_append] at hfuel
        omega
      have hread := ih hlength
      rw [List.append_assoc, readChars, readChar_append first]
      simp only [hread]

theorem readString_append (h : Spells raw name) (rest : List Char) :
    readString (raw ++ '\x22' :: rest) = .ok (name, rest) := by
  have hfuel : raw.length < (raw ++ '\x22' :: rest).length + 1 := by
    rw [List.length_append]
    omega
  exact readChars_append h hfuel rest

/-- A character that is read was written. -/
theorem writes_of_readChar (h : readChar cs = .ok (some c, rest)) :
    ∃ lexeme, Writes c lexeme ∧ cs = lexeme ++ rest := by
  unfold readChar at h
  split at h
  · cases h
  · rename_i a b c d tail
    split at h
    · cases h
    · rename_i n hnumber
      split at h
      · cases h
      · rename_i htrailing
        split at h
        · rename_i hleading
          split at h
          · rename_i e f g i tail
            split at h
            · cases h
            · rename_i m hsecond
              split at h
              · rename_i hm
                obtain ⟨hc, rfl⟩ := Prod.mk.inj (Except.ok.inj h)
                obtain rfl := Option.some.inj hc
                exact ⟨_, .pair hnumber hsecond hleading hm, rfl⟩
              · cases h
          · cases h
        · rename_i hleading
          cases h
          exact ⟨_, .code hnumber (Bool.eq_false_iff.mpr hleading)
            (Bool.eq_false_iff.mpr htrailing), rfl⟩
  · split at h
    · cases h
    · rename_i hescape
      cases h
      exact ⟨_, .letter hescape, rfl⟩
  · split at h
    · cases h
    · rename_i hquote
      split at h
      · cases h
      · rename_i hplain
        cases h
        refine ⟨_, .plain ?_, rfl⟩
        simp only [Bool.or_eq_true, decide_eq_true_eq, not_or] at hplain
        simp [isPlain, hquote, hplain.1, Char.not_lt.mp hplain.2]

/-- Reading ends at a quote. -/
theorem eq_quote_of_readChar (h : readChar cs = .ok (none, rest)) : cs = '\x22' :: rest := by
  unfold readChar at h
  split at h
  · cases h
  · split at h
    · cases h
    · split at h
      · cases h
      · split at h
        · split at h
          · split at h
            · cases h
            · split at h <;> cases h
          · cases h
        · cases h
  · split at h <;> cases h
  · split at h
    · rename_i hquote
      cases h
      rw [hquote]
    · split at h <;> cases h

theorem spells_of_readChars {fuel : Nat} (h : readChars fuel cs = .ok (name, rest)) :
    ∃ raw, Spells raw name ∧ cs = raw ++ '\x22' :: rest := by
  induction fuel generalizing cs name with
  | zero => cases h
  | succ fuel ih =>
    rw [readChars] at h
    split at h
    · cases h
    · rename_i hchar
      cases h
      exact ⟨[], .nil, eq_quote_of_readChar hchar⟩
    · rename_i c tail hchar
      split at h
      · cases h
      · rename_i text last hrest
        cases h
        obtain ⟨lexeme, hlexeme, rfl⟩ := writes_of_readChar hchar
        obtain ⟨raw, hraw, rfl⟩ := ih hrest
        exact ⟨lexeme ++ raw, .cons hlexeme hraw, (List.append_assoc ..).symm⟩

/-- A string that is read was spelled. -/
theorem spells_of_readString (h : readString cs = .ok (name, rest)) :
    ∃ raw, Spells raw name ∧ cs = raw ++ '\x22' :: rest := spells_of_readChars h

/-- What is read of a text between quotes is what it spells, up to its closing quote. -/
theorem IsString.spells_of_readString {rest' : List Char} (h : IsString raw)
    (hread : readString (raw ++ '\x22' :: rest) = .ok (name, rest')) :
    Spells raw name ∧ rest' = rest := by
  obtain ⟨raw', hraw', heq⟩ := Json.spells_of_readString hread
  obtain ⟨rfl, rfl⟩ := h.append_inj hraw'.isString heq
  exact ⟨hraw', rfl⟩

/-- A text between quotes stands for one string at most. -/
theorem Spells.unique {name' : List Char} (h : Spells raw name) (h' : Spells raw name') :
    name = name' := by
  have hread := readString_append h []
  rw [readString_append h' []] at hread
  exact (Prod.mk.inj (Except.ok.inj hread)).1.symm

end Backpressure.Json
