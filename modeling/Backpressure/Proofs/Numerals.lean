import Backpressure.Json.Values
set_option autoImplicit false

/-!
# Numbers are read as they are written

A number that is read ends where its text cannot go on, so it can be taken off the front of a
longer text only if what follows does not go on with it. `Reads` says of a reader that it takes
a text off the front of every such longer text. For integers this is the inverse of writing
them, from the smallest signed to the largest unsigned word.
-/

namespace Backpressure

namespace Decimal

/-! ## Digits -/

theorem isDigit_of_mem_natural {n : Nat} {c : Char} (h : c ∈ natural n) : isDigit c = true :=
  Nat.isDigit_of_mem_toDigits (by decide) (by decide) h

/-- A number has a first digit. -/
theorem natural_eq_cons (n : Nat) : ∃ c cs, natural n = c :: cs ∧ isDigit c = true := by
  have hsome : natural n ≠ [] := Nat.toDigits_ne_nil
  obtain ⟨c, cs, hcs⟩ := List.exists_cons_of_ne_nil hsome
  exact ⟨c, cs, hcs, isDigit_of_mem_natural (n := n) (hcs ▸ List.mem_cons_self)⟩

/-- The digits of a number stand for the number. -/
theorem value_natural (n : Nat) : value (natural n) = n := by
  have hvalue : value (natural n) = Nat.ofDigitChars 10 (Nat.toDigits 10 n) 0 :=
    Nat.ofDigitChars_eq_foldl.symm
  rw [hvalue, Nat.ofDigitChars_ten_toDigits]

/-- No number but zero begins with a zero. -/
theorem head?_natural {n : Nat} (h : 0 < n) : (natural n).head? ≠ some '0' := by
  induction n using Nat.strongRecOn with
  | ind n ih =>
    rcases Nat.lt_or_ge n 10 with hlt | hge
    · rw [natural, Nat.toDigits_of_lt_base hlt, List.head?_cons]
      intro hzero
      exact Nat.ne_of_gt h (Nat.digitChar_eq_zero.mp (Option.some.inj hzero))
    · have hsome : (Nat.toDigits 10 (n / 10)).head?.isSome = true :=
        List.isSome_head?.mpr Nat.toDigits_ne_nil
      rw [natural, Nat.toDigits_of_base_le (by decide) hge, List.head?_append,
        Option.or_of_isSome hsome]
      exact ih (n / 10) (Nat.div_lt_self h (by decide)) (Nat.div_pos hge (by decide))

/-- A zero that the digits of a number begin with stands alone. -/
theorem natural_ne_cons_zero {n : Nat} {c : Char} {cs : List Char} :
    natural n ≠ '0' :: c :: cs := by
  intro h
  rcases Nat.eq_zero_or_pos n with rfl | hpos
  · rw [natural, Nat.toDigits_zero] at h
    cases h
  · exact head?_natural hpos (h ▸ List.head?_cons)

theorem integer_natCast (n : Nat) : integer n = natural n :=
  if_neg (Int.not_lt.mpr (Int.natCast_nonneg n))

end Decimal

namespace Json

open Backpressure.Decimal (isDigit)

/-! ## Where a number ends -/

/-- A number does not go on with this character. -/
def EndsNumber (c : Char) : Prop := isDigit c = false ∧ c ≠ '.' ∧ c ≠ 'e' ∧ c ≠ 'E'

instance (c : Char) : Decidable (EndsNumber c) := inferInstanceAs (Decidable (_ ∧ _))

/-- A number in front of this text ends where the text begins. -/
def Closed (rest : List Char) : Prop := ∀ c ∈ rest.head?, EndsNumber c

theorem closed_nil : Closed [] := fun _ hc => nomatch hc

theorem closed_cons {c : Char} {cs : List Char} (h : EndsNumber c) : Closed (c :: cs) := by
  rintro d hd
  cases hd
  exact h

/-- The reader takes the text off the front of every text that does not go on with it. -/
def Reads {α : Type} (read : Step α) (cs : List Char) (a : α) : Prop :=
  ∀ rest, Closed rest → read (cs ++ rest) = .ok (a, rest)

/-- What is made of a value is read where the value is. -/
theorem Reads.map {α β : Type} {read : Step α} {cs : List Char} {a : α} (h : Reads read cs a)
    (f : α → β) :
    Reads (fun cs => do
      let (a, rest) ← read cs
      return (f a, rest)) cs (f a) := by
  intro rest hrest
  simp only [bind, Except.bind, h rest hrest]
  rfl

/-- What reads a text in front of anything reads a document of it. -/
theorem document_of_reads {α : Type} {read : Step α} {text : String} {a : α}
    (h : Reads read text.toList a) : document read text = .ok a := by
  have hread : read text.toList = .ok (a, []) := by
    rw [← h [] closed_nil, List.append_nil]
  rw [document, hread]
  rfl

theorem skipBlanks_cons {c : Char} (h : isBlank c = false) (cs : List Char) :
    skipBlanks (c :: cs) = c :: cs :=
  List.dropWhile_cons_of_neg (by simp [h])

/-! ## Reading digits -/

/-- Digits, at least one of them. -/
structure IsDigits (ds : List Char) : Prop where
  digits : ∀ c ∈ ds, isDigit c = true
  nonempty : ds ≠ []

/-- Digits in front of a point; a leading zero stands alone. -/
structure IsWhole (ds : List Char) : Prop extends IsDigits ds where
  alone : ∀ c cs, ds ≠ '0' :: c :: cs

/-- Digits in front of this text end where the text begins. -/
def EndsDigits (rest : List Char) : Prop := ∀ c ∈ rest.head?, isDigit c = false

theorem Closed.endsDigits {rest : List Char} (h : Closed rest) : EndsDigits rest :=
  fun c hc => (h c hc).1

theorem readDigits_append {ds rest : List Char} (h : IsDigits ds) (hrest : EndsDigits rest) :
    readDigits (ds ++ rest) = .ok (ds, rest) := by
  have hend : rest.takeWhile isDigit = [] ∧ rest.dropWhile isDigit = rest := by
    cases rest with
    | nil => exact ⟨rfl, rfl⟩
    | cons c cs => simp [hrest c rfl]
  have htake : (ds ++ rest).takeWhile isDigit = ds := by
    rw [List.takeWhile_append_of_pos h.digits, hend.1, List.append_nil]
  have hdrop : (ds ++ rest).dropWhile isDigit = rest := by
    rw [List.dropWhile_append_of_pos h.digits, hend.2]
  obtain ⟨d, ds, rfl⟩ := List.exists_cons_of_ne_nil h.nonempty
  rw [readDigits, htake, hdrop]

theorem readWhole_append {ds rest : List Char} (h : IsWhole ds) (hrest : EndsDigits rest) :
    readWhole (ds ++ rest) = .ok (ds, rest) := by
  rw [readWhole, readDigits_append h.toIsDigits hrest]
  split
  · rename_i hzero
    obtain ⟨hzero, -⟩ := Prod.mk.inj (Except.ok.inj hzero)
    exact absurd hzero (h.alone _ _)
  · rfl

theorem isWhole_natural (n : Nat) : IsWhole (Decimal.natural n) where
  digits := fun _ => Decimal.isDigit_of_mem_natural
  nonempty := Nat.toDigits_ne_nil
  alone := fun _ _ => Decimal.natural_ne_cons_zero

section Digits

variable {rest : List Char} (hrest : Closed rest)
include hrest

theorem readFraction_closed : readFraction rest = .ok (none, rest) := by
  cases rest with
  | nil => rfl
  | cons c cs =>
    unfold readFraction
    split
    · rename_i hpoint
      exact absurd (List.cons.inj hpoint).1 (hrest c rfl).2.1
    · rfl

theorem readExponent_closed : readExponent rest = .ok (none, rest) := by
  cases rest with
  | nil => rfl
  | cons c cs => simp [readExponent, (hrest c rfl).2.2]

theorem readNumeral_natural (n : Nat) :
    readNumeral (Decimal.natural n ++ rest) = .ok (⟨Decimal.natural n, none, none⟩, rest) := by
  rw [readNumeral, readWhole_append (isWhole_natural n) hrest.endsDigits]
  simp only [bind, Except.bind, readFraction_closed hrest, readExponent_closed hrest, pure,
    Except.pure]

end Digits

/-! ## Reading integers -/

/-- An integer that a signed or an unsigned word of 64 bits holds. -/
def IsWord (z : Int) : Prop := -0x8000_0000_0000_0000 ≤ z ∧ z < 0x1_0000_0000_0000_0000

theorem isBlank_of_isDigit {c : Char} (h : isDigit c = true) : isBlank c = false := by
  rw [Bool.eq_false_iff]
  intro hblank
  simp only [isBlank, Bool.or_eq_true, decide_eq_true_eq] at hblank
  rcases hblank with ((rfl | rfl) | rfl) | rfl <;> exact absurd h (by decide)

/-- A number begins with a sign or a digit. -/
theorem integer_eq_cons (z : Int) :
    ∃ c cs, Decimal.integer z = c :: cs ∧ startsNumber c = true ∧ isBlank c = false := by
  unfold Decimal.integer
  split
  · exact ⟨'-', _, rfl, by decide, by decide⟩
  · obtain ⟨c, cs, hcs, hdigit⟩ := Decimal.natural_eq_cons z.natAbs
    exact ⟨c, cs, hcs, by simp [startsNumber, hdigit], isBlank_of_isDigit hdigit⟩

theorem readNumber_negative {n : Nat} (hpos : 0 < n) (hle : n ≤ 0x8000_0000_0000_0000) :
    Reads readNumber ('-' :: Decimal.natural n) (.integer (-n)) := by
  intro rest hrest
  have hnumber :
      Number.ofNumeral true ⟨Decimal.natural n, none, none⟩ = .ok (.integer (-n)) := by
    simp [Number.ofNumeral, Numeral.isWhole, Decimal.value_natural, hpos, hle]
  simp only [readNumber, List.cons_append, readNumeral_natural hrest, hnumber]

theorem readNumber_natural {n : Nat} (hlt : n < 0x1_0000_0000_0000_0000) :
    Reads readNumber (Decimal.natural n) (.integer n) := by
  intro rest hrest
  have hnumber : Number.ofNumeral false ⟨Decimal.natural n, none, none⟩ = .ok (.integer n) := by
    simp [Number.ofNumeral, Numeral.isWhole, Decimal.value_natural, hlt]
  unfold readNumber
  split
  rename_i hsign
  split at hsign
  · rename_i hminus
    obtain ⟨c, cs, hcs, hdigit⟩ := Decimal.natural_eq_cons n
    rw [hcs, List.cons_append] at hminus
    exact absurd ((List.cons.inj hminus).1 ▸ hdigit) (by decide)
  · cases hsign
    simp only [readNumeral_natural hrest, hnumber]

theorem reads_number {z : Int} (hz : IsWord z) :
    Reads readNumber (Decimal.integer z) (.integer z) := by
  unfold Decimal.integer
  unfold IsWord at hz
  split
  · have hneg : z = -(z.natAbs : Int) := by omega
    have hread := readNumber_negative (n := z.natAbs) (by omega) (by omega)
    rwa [← hneg] at hread
  · have hnonneg : z = (z.natAbs : Int) := by omega
    have hread := readNumber_natural (n := z.natAbs) (by omega)
    rwa [← hnonneg] at hread

/-- An integer that has the width is read as it is written. -/
theorem reads_integer {w : Width} {z : Int} (hz : IsWord z) (hleast : w.least ≤ z)
    (hgreatest : z ≤ w.greatest) : Reads (readInteger w) (Decimal.integer z) z := by
  intro rest hrest
  have hnumber := reads_number hz rest hrest
  obtain ⟨c, cs, hcs, hstarts, hblank⟩ := integer_eq_cons z
  rw [hcs, List.cons_append] at hnumber ⊢
  have hcheck : w.check (.integer z) = .ok z := by
    rw [Width.check, if_pos (by simp [hleast, hgreatest])]
  rw [readInteger, skipBlanks_cons hblank]
  simp only [hstarts, if_true, hnumber, hcheck]

theorem reads_natural {w : Width} {n : Nat} (hn : n < 0x1_0000_0000_0000_0000)
    (hleast : w.least ≤ 0) (hgreatest : n ≤ w.greatest) :
    Reads (readInteger w) (Decimal.natural n) n := by
  have hword : IsWord n := by
    unfold IsWord
    omega
  have hread := reads_integer hword (Int.le_trans hleast (Int.natCast_nonneg n)) hgreatest
  rwa [Decimal.integer_natCast] at hread

end Json

end Backpressure
