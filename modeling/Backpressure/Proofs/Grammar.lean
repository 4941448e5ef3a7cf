import Backpressure.Proofs.Spelling
set_option autoImplicit false

/-!
# The grammar of JSON values

Which texts are numbers, arrays, objects and values is said here without a reader, as RFC 8259 does.
What stands inside brackets is a list of parts, with blanks and commas between them, and it is
`Listed` in the same way whatever the parts are: values, members, or fields of something known.

A value of any depth can be skipped in front of every text that does not go on with it. This takes
no more than three steps for each of its characters, since each nested part is shorter than what
stands around it.
-/

namespace Backpressure.Json

open Backpressure.Decimal (isDigit)

/-! ## Numbers -/

/-- A point with digits, or nothing. -/
inductive IsFraction : List Char → Prop where
  | none : IsFraction []
  | point {ds : List Char} (digits : IsDigits ds) : IsFraction ('.' :: ds)

/-- An exponent with digits, or nothing. -/
inductive IsExponent : List Char → Prop where
  | none : IsExponent []
  | exponent {e : Char} {sign ds : List Char} (letter : e = 'e' ∨ e = 'E')
      (sign_mem : sign = [] ∨ sign = ['-'] ∨ sign = ['+']) (digits : IsDigits ds) :
      IsExponent (e :: (sign ++ ds))

/-- A number: a sign, digits, perhaps a fraction and perhaps an exponent. -/
inductive IsNumber : List Char → Prop where
  | mk {sign whole fraction exponent : List Char} (sign_mem : sign = [] ∨ sign = ['-'])
      (isWhole : IsWhole whole) (isFraction : IsFraction fraction)
      (isExponent : IsExponent exponent) :
      IsNumber (sign ++ (whole ++ (fraction ++ exponent)))

/-! ## Parts inside brackets -/

/-- What stands in front of a part: blanks, and a comma unless it is the first one. -/
def Gap : Bool → List Char → Prop
  | true, sep => Blanks sep
  | false, sep => ∃ ws more, Blanks ws ∧ Blanks more ∧ sep = ws ++ ',' :: more

/-- Parts with what stands between them, up to the closing bracket. -/
inductive Listed (closing : Char) : Bool → List (List Char) → List Char → Prop where
  | close {first : Bool} {ws : List Char} (blanks : Blanks ws) :
      Listed closing first [] (ws ++ [closing])
  | part {first : Bool} {sep part text : List Char} {parts : List (List Char)}
      (gap : Gap first sep) (later : Listed closing false parts text) :
      Listed closing first (part :: parts) (sep ++ (part ++ text))

/-- A member of an object as it is written. -/
structure Member where
  /-- What stands between the quotes of the key. -/
  key : List Char
  /-- What stands in front of the colon. -/
  gap : List Char
  /-- What stands behind the colon. -/
  lead : List Char
  value : List Char
  deriving DecidableEq, Repr

namespace Member

/-- What stands behind the key. -/
def tail (m : Member) : List Char := m.gap ++ ':' :: (m.lead ++ m.value)

/-- The text of a member. -/
def text (m : Member) : List Char := '\x22' :: (m.key ++ '\x22' :: m.tail)

theorem tail_append (m : Member) (rest : List Char) :
    m.tail ++ rest = m.gap ++ ':' :: (m.lead ++ (m.value ++ rest)) := by
  simp [tail]

theorem text_append (m : Member) (rest : List Char) :
    m.text ++ rest = '\x22' :: (m.key ++ '\x22' :: (m.tail ++ rest)) := by
  simp [text]

/-- There is a string for a key, and blanks around the colon. -/
structure IsKeyed (m : Member) : Prop where
  key : IsString m.key
  gap : Blanks m.gap
  lead : Blanks m.lead

end Member

/-! ## Values -/

/-- The text of a value. -/
inductive IsValue : List Char → Prop where
  | null : IsValue ['n', 'u', 'l', 'l']
  | yes : IsValue ['t', 'r', 'u', 'e']
  | no : IsValue ['f', 'a', 'l', 's', 'e']
  | number {cs : List Char} (number : IsNumber cs) : IsValue cs
  | string {raw : List Char} (string : IsString raw) : IsValue ('\x22' :: (raw ++ ['\x22']))
  | array {values : List (List Char)} {text : List Char} (all : ∀ v ∈ values, IsValue v)
      (listed : Listed ']' true values text) : IsValue ('[' :: text)
  | object {ms : List Member} {text : List Char} (keys : ∀ m ∈ ms, m.IsKeyed)
      (all : ∀ m ∈ ms, IsValue m.value) (listed : Listed '\x7d' true (ms.map Member.text) text) :
      IsValue ('\x7b' :: text)

variable {closing c : Char} {first : Bool} {cs ws sep part text rest : List Char}
  {parts : List (List Char)}

/-! ## Skipping numbers -/

/-- A text does not go on with the digits, or the fraction, in front of it. -/
def EndsFraction (rest : List Char) : Prop := ∀ c ∈ rest.head?, isDigit c = false ∧ c ≠ '.'

theorem EndsFraction.endsDigits (h : EndsFraction rest) : EndsDigits rest :=
  fun c hc => (h c hc).1

theorem isDigit_of_letter {e : Char} (h : e = 'e' ∨ e = 'E') : isDigit e = false ∧ e ≠ '.' := by
  rcases h with rfl | rfl <;> decide

theorem IsExponent.endsFraction {exponent : List Char} (h : IsExponent exponent)
    (hrest : Closed rest) : EndsFraction (exponent ++ rest) := by
  cases h with
  | none => exact fun c hc => ⟨(hrest c hc).1, (hrest c hc).2.1⟩
  | exponent letter _ _ =>
    rintro c hc
    cases hc
    exact isDigit_of_letter letter

theorem readExponent_append {exponent : List Char} (h : IsExponent exponent)
    (hrest : Closed rest) : ∃ e, readExponent (exponent ++ rest) = .ok (e, rest) := by
  cases h with
  | none => exact ⟨none, readExponent_closed hrest⟩
  | @exponent e sign ds letter sign_mem digits =>
    have hsign : ∃ negative, exponentSign (sign ++ (ds ++ rest)) = (negative, ds ++ rest) := by
      obtain ⟨d, ds, rfl⟩ := List.exists_cons_of_ne_nil digits.nonempty
      have hd : isDigit d = true := digits.digits d List.mem_cons_self
      rcases sign_mem with rfl | rfl | rfl
      · refine ⟨false, ?_⟩
        rw [List.nil_append, List.cons_append]
        unfold exponentSign
        split
        · rename_i heq
          cases heq
          exact absurd hd (by decide)
        · rename_i heq
          cases heq
          exact absurd hd (by decide)
        · rfl
      · exact ⟨true, rfl⟩
      · exact ⟨false, rfl⟩
    obtain ⟨negative, hsign⟩ := hsign
    have hletter : (decide (e = 'e') || decide (e = 'E')) = true := by simpa using letter
    refine ⟨some (negative, ds), ?_⟩
    rw [List.cons_append, List.append_assoc, readExponent, if_pos hletter, hsign]
    simp only [readDigits_append digits hrest.endsDigits]

theorem readFraction_append {fraction : List Char} (h : IsFraction fraction)
    (hrest : EndsFraction rest) : ∃ f, readFraction (fraction ++ rest) = .ok (f, rest) := by
  cases h with
  | none =>
    refine ⟨none, ?_⟩
    rw [List.nil_append]
    unfold readFraction
    split
    · exact absurd rfl (hrest '.' rfl).2
    · rfl
  | @point ds digits =>
    refine ⟨some ds, ?_⟩
    rw [List.cons_append, readFraction]
    simp only [readDigits_append digits hrest.endsDigits]

theorem IsFraction.endsDigits {fraction : List Char} (h : IsFraction fraction)
    (hrest : EndsFraction rest) : EndsDigits (fraction ++ rest) := by
  cases h with
  | none => exact hrest.endsDigits
  | point _ =>
    rintro c hc
    cases hc
    decide

/-- A number begins with a sign or a digit. -/
theorem IsNumber.eq_cons (h : IsNumber cs) : ∃ c tail, cs = c :: tail ∧ startsNumber c = true := by
  obtain ⟨sign_mem, isWhole, -, -⟩ := h
  obtain ⟨d, ds, rfl⟩ := List.exists_cons_of_ne_nil isWhole.nonempty
  have hd : isDigit d = true := isWhole.digits d List.mem_cons_self
  rcases sign_mem with rfl | rfl
  · exact ⟨d, _, rfl, by simp [startsNumber, hd]⟩
  · exact ⟨'-', _, rfl, by decide⟩

theorem skipNumber_of_ne (h : ∀ tail, cs ≠ '-' :: tail) :
    skipNumber cs = (readNumeral cs).map Prod.snd := by
  unfold skipNumber
  split
  · exact absurd rfl (h _)
  · rfl

/-- A number is skipped in front of a text that does not go on with it. -/
theorem skipNumber_append (h : IsNumber cs) (hrest : Closed rest) :
    skipNumber (cs ++ rest) = .ok rest := by
  obtain @⟨sign, whole, fraction, exponent, sign_mem, isWhole, isFraction, isExponent⟩ := h
  have hends := isExponent.endsFraction hrest
  obtain ⟨e, hexponent⟩ := readExponent_append isExponent hrest
  obtain ⟨f, hfraction⟩ := readFraction_append isFraction hends
  have hwhole := readWhole_append isWhole (isFraction.endsDigits hends)
  have hnumeral : readNumeral (whole ++ (fraction ++ (exponent ++ rest))) =
      .ok (⟨whole, f, e⟩, rest) := by
    simp only [readNumeral, bind, Except.bind, hwhole, hfraction, hexponent]
    rfl
  have htext : sign ++ (whole ++ (fraction ++ exponent)) ++ rest =
      sign ++ (whole ++ (fraction ++ (exponent ++ rest))) := by
    simp only [List.append_assoc]
  rw [htext]
  rcases sign_mem with rfl | rfl
  · obtain ⟨d, ds, rfl⟩ := List.exists_cons_of_ne_nil isWhole.nonempty
    have hd : isDigit d = true := isWhole.digits d List.mem_cons_self
    have hunsigned : ∀ tail, d :: ds ++ (fraction ++ (exponent ++ rest)) ≠ '-' :: tail := by
      rintro tail heq
      cases heq
      exact absurd hd (by decide)
    rw [List.nil_append, skipNumber_of_ne hunsigned, hnumeral]
    rfl
  · change (readNumeral (whole ++ (fraction ++ (exponent ++ rest)))).map Prod.snd = .ok rest
    rw [hnumeral]
    rfl

/-! ## Looking for the next part -/

theorem endsNumber_of_isBlank (h : isBlank c = true) : EndsNumber c := by
  simp only [isBlank, Bool.or_eq_true, decide_eq_true_eq] at h
  rcases h with ((rfl | rfl) | rfl) | rfl <;> decide

/-- A number in front of blanks ends there if it could end behind them. -/
theorem Closed.append_blanks (h : Closed rest) (hws : Blanks ws) : Closed (ws ++ rest) := by
  cases ws with
  | nil => exact h
  | cons w ws => exact closed_cons (endsNumber_of_isBlank (hws w List.mem_cons_self))

/-- Brackets close without a blank. -/
theorem Listed.close_now (closing : Char) (first : Bool) : Listed closing first [] [closing] :=
  @Listed.close closing first [] (List.forall_mem_nil _)

/-- A first part stands without a blank. -/
theorem Listed.first_part (part : List Char) (h : Listed closing false parts text) :
    Listed closing true (part :: parts) (part ++ text) :=
  @Listed.part closing true [] part text parts (List.forall_mem_nil _) h

/-- A later part stands behind a comma, without a blank. -/
theorem Listed.later_part (part : List Char) (h : Listed closing false parts text) :
    Listed closing false (part :: parts) (',' :: (part ++ text)) :=
  @Listed.part closing false [','] part text parts
    ⟨[], [], List.forall_mem_nil _, List.forall_mem_nil _, rfl⟩ h

theorem intercalate_cons (part : List Char) (parts : List (List Char)) :
    [','].intercalate (part :: parts) = part ++ parts.flatMap (',' :: ·) := by
  induction parts generalizing part with
  | nil => simp
  | cons later parts ih =>
    rw [List.intercalate_cons_cons, ih, List.flatMap_cons, List.append_assoc, List.singleton_append,
      List.cons_append]

/-- Parts with commas between them, and with no blanks. -/
theorem listed_intercalate (closing : Char) (parts : List (List Char)) :
    Listed closing true parts ([','].intercalate parts ++ [closing]) := by
  have hlater (parts : List (List Char)) :
      Listed closing false parts (parts.flatMap (',' :: ·) ++ [closing]) := by
    induction parts with
    | nil => exact .close_now closing false
    | cons part parts ih =>
      rw [List.flatMap_cons, List.append_assoc, List.cons_append]
      exact .later_part part ih
  cases parts with
  | nil => exact .close_now closing true
  | cons part parts =>
    rw [intercalate_cons, List.append_assoc]
    exact .first_part part (hlater parts)

theorem Listed.closed_append (h : Listed closing false parts text) (hclosing : EndsNumber closing)
    (rest : List Char) : Closed (text ++ rest) := by
  cases h with
  | close blanks =>
    rw [List.append_assoc]
    exact (closed_cons hclosing).append_blanks blanks
  | part gap _ =>
    obtain ⟨ws, more, hws, -, rfl⟩ := gap
    rw [List.append_assoc, List.append_assoc]
    exact (closed_cons (by decide)).append_blanks hws

/-- A closing bracket takes some room. -/
theorem Listed.length_pos (h : Listed closing first parts text) : 0 < text.length := by
  induction h with
  | close _ => simp
  | part _ _ ih =>
    simp only [List.length_append]
    omega

theorem expectMark_cons (mark : Char) (h : isBlank mark = false) (rest : List Char) :
    expectMark mark (mark :: rest) = .ok rest := by
  rw [expectMark, skipBlanks_cons h]
  simp

theorem expectMark_append (mark : Char) (hmark : isBlank mark = false) (hws : Blanks ws)
    (rest : List Char) : expectMark mark (ws ++ mark :: rest) = .ok rest := by
  rw [expectMark, skipBlanks_append hws, skipBlanks_cons hmark]
  exact if_pos rfl

/-- A part inside brackets begins with no blank and not as if they were closed. -/
def Begins (closing : Char) (part : List Char) : Prop :=
  ∃ c cs, part = c :: cs ∧ isBlank c = false ∧ c ≠ closing

theorem Begins.length_pos (h : Begins closing part) : 0 < part.length := by
  obtain ⟨c, cs, rfl, -⟩ := h
  exact Nat.succ_pos _

theorem next_close (hws : Blanks ws) (hclosing : isBlank closing = false) (first : Bool)
    (rest : List Char) : next closing first (ws ++ closing :: rest) = .ok (.close rest) := by
  rw [next, skipBlanks_append hws, skipBlanks_cons hclosing]
  exact if_pos rfl

theorem next_part (hgap : Gap first sep) (hpart : Begins closing part) (hclosing : closing ≠ ',')
    (rest : List Char) :
    next closing first (sep ++ (part ++ rest)) = .ok (.part (part ++ rest)) := by
  obtain ⟨c, cs, rfl, hblank, hc⟩ := hpart
  rw [List.cons_append]
  cases first with
  | true =>
    rw [next, skipBlanks_append hgap, skipBlanks_cons hblank]
    simp [hc]
  | false =>
    obtain ⟨ws, more, hws, hmore, rfl⟩ := hgap
    rw [List.append_assoc, next, skipBlanks_append hws, List.cons_append,
      skipBlanks_cons (by decide)]
    simp only [if_neg hclosing.symm, skipBlanks_append hmore, skipBlanks_cons hblank, if_neg hc]
    rfl

theorem Member.begins_text (m : Member) : Begins '\x7d' m.text :=
  ⟨'\x22', _, rfl, by decide, by decide⟩

/-! ## Skipping values -/

/-- A text is skipped in front of every text that does not go on with it, if enough steps are
taken. -/
def Skipped (cs : List Char) : Prop :=
  ∀ fuel rest, 3 * cs.length ≤ fuel → Closed rest → skipWithin fuel (cs ++ rest) = .ok rest

theorem skipWithin_blanks (hws : Blanks ws) (fuel : Nat) (cs : List Char) :
    skipWithin fuel (ws ++ cs) = skipWithin fuel cs := by
  cases fuel with
  | zero => rfl
  | succ fuel => rw [skipWithin, skipWithin, skipBlanks_append hws]

/-- Values between brackets are skipped if each of them is. -/
theorem skipElements_listed {values : List (List Char)} (h : Listed ']' first values text)
    (hvalues : ∀ v ∈ values, Begins ']' v ∧ Skipped v) {fuel : Nat}
    (hfuel : 3 * text.length ≤ fuel) (rest : List Char) :
    skipElements fuel first (text ++ rest) = .ok rest := by
  induction h generalizing fuel with
  | @close first ws blanks =>
    rw [List.length_append, List.length_singleton] at hfuel
    obtain ⟨fuel, rfl⟩ : ∃ n, fuel = n + 1 := Nat.exists_eq_add_one.mpr (by omega)
    rw [List.append_assoc, List.singleton_append, skipElements, next_close blanks (by decide)]
  | @part first sep v text values gap later ih =>
    obtain ⟨⟨hbegins, hskip⟩, hvalues⟩ := List.forall_mem_cons.mp hvalues
    have hpart := hbegins.length_pos
    have hlater := later.length_pos
    rw [List.length_append, List.length_append] at hfuel
    obtain ⟨fuel, rfl⟩ : ∃ n, fuel = n + 1 := Nat.exists_eq_add_one.mpr (by omega)
    have hv : skipWithin fuel (v ++ (text ++ rest)) = .ok (text ++ rest) :=
      hskip fuel _ (by omega) (later.closed_append (by decide) rest)
    rw [List.append_assoc, List.append_assoc, skipElements,
      next_part gap hbegins (by decide)]
    simp only [hv]
    exact ih hvalues (by omega)

/-- A member is skipped if its value is. -/
theorem skipMember_text {m : Member} (hkeyed : m.IsKeyed) (hvalue : Skipped m.value) {fuel : Nat}
    (hfuel : 3 * m.value.length ≤ fuel) (hrest : Closed rest) :
    skipMember (fuel + 1) (m.text ++ rest) = .ok rest := by
  obtain ⟨hkey, hgap, hlead⟩ := hkeyed
  rw [m.text_append, m.tail_append, skipMember]
  simp only [bind, Except.bind, expectMark_cons '\x22' (by decide), skipString_append hkey,
    expectMark_append ':' (by decide) hgap, skipWithin_blanks hlead,
    hvalue fuel rest hfuel hrest]

/-- Members between braces are skipped if the value of each of them is. -/
theorem skipMembers_listed {ms : List Member} (hms : ∀ m ∈ ms, m.IsKeyed ∧ Skipped m.value)
    (h : Listed '\x7d' first (ms.map Member.text) text) {fuel : Nat}
    (hfuel : 3 * text.length ≤ fuel) (rest : List Char) :
    skipMembers fuel first (text ++ rest) = .ok rest := by
  induction ms generalizing first text fuel with
  | nil =>
    have hpos := h.length_pos
    obtain ⟨fuel, rfl⟩ : ∃ n, fuel = n + 1 := Nat.exists_eq_add_one.mpr (by omega)
    cases h with
    | close blanks =>
      rw [List.append_assoc, List.singleton_append, skipMembers, next_close blanks (by decide)]
  | cons m ms ih =>
    obtain ⟨⟨hkeyed, hskip⟩, hms⟩ := List.forall_mem_cons.mp hms
    cases h with
    | @part first sep v text values gap later =>
      have hlater := later.length_pos
      have hmember : m.value.length < m.text.length := by
        simp only [Member.text, Member.tail, List.length_append, List.length_cons]
        omega
      rw [List.length_append, List.length_append] at hfuel
      obtain ⟨fuel, rfl⟩ : ∃ n, fuel = n + 1 + 1 := ⟨fuel - 2, by omega⟩
      have hm : skipMember (fuel + 1) (m.text ++ (text ++ rest)) = .ok (text ++ rest) :=
        skipMember_text hkeyed hskip (by omega) (later.closed_append (by decide) rest)
      rw [List.append_assoc, List.append_assoc, skipMembers,
        next_part gap m.begins_text (by decide)]
      simp only [hm]
      exact ih hms later (by omega)

theorem isBlank_of_startsNumber (h : startsNumber c = true) : isBlank c = false := by
  simp only [startsNumber, Bool.or_eq_true, decide_eq_true_eq] at h
  rcases h with rfl | hdigit
  · decide
  · exact isBlank_of_isDigit hdigit

/-- No bracket and no quote begins a number, and no letter. -/
theorem ne_of_startsNumber (h : startsNumber c = true) :
    ∀ d ∈ ['\x22', '[', ']', '\x7b', '\x7d', 't', 'f', 'n', ','], c ≠ d := by
  have hstarts : ∀ d ∈ ['\x22', '[', ']', '\x7b', '\x7d', 't', 'f', 'n', ','],
      (!startsNumber d) = true := List.all_eq_true.mp (by decide)
  rintro d hd rfl
  have hstarts := hstarts c hd
  rw [h] at hstarts
  cases hstarts

/-- A value begins with no blank and no closing bracket. -/
theorem IsValue.begins (h : IsValue cs) (hclosing : closing = ']' ∨ closing = '\x7d') :
    Begins closing cs := by
  cases h with
  | number number =>
    obtain ⟨c, tail, rfl, hstarts⟩ := number.eq_cons
    refine ⟨c, tail, rfl, isBlank_of_startsNumber hstarts, ne_of_startsNumber hstarts _ ?_⟩
    rcases hclosing with rfl | rfl <;> decide
  | null | yes | no | string _ | array _ _ | object _ _ _ =>
    refine ⟨_, _, rfl, by decide, ?_⟩
    rcases hclosing with rfl | rfl <;> decide

/-- A text with a first character takes one step and what the others take. -/
theorem skipped_cons
    (h : ∀ fuel rest, 3 * cs.length ≤ fuel → Closed rest →
      skipWithin (fuel + 1) (c :: (cs ++ rest)) = .ok rest) : Skipped (c :: cs) := by
  intro fuel rest hfuel hrest
  rw [List.length_cons] at hfuel
  obtain ⟨fuel, rfl⟩ : ∃ n, fuel = n + 1 := Nat.exists_eq_add_one.mpr (by omega)
  exact h fuel rest (by omega) hrest

/-- Every value is skipped. -/
theorem IsValue.skipped (h : IsValue cs) : Skipped cs := by
  induction h with
  | null | yes | no => exact skipped_cons fun _ _ _ _ => rfl
  | number number =>
    obtain ⟨c, tail, rfl, hstarts⟩ := number.eq_cons
    refine skipped_cons fun fuel rest _ hrest => ?_
    have hne := ne_of_startsNumber hstarts
    simp only [List.forall_mem_cons] at hne
    obtain ⟨hquote, hbracket, -, hbrace, -, ht, hf, hn, -⟩ := hne
    rw [skipWithin, skipBlanks_cons (isBlank_of_startsNumber hstarts)]
    simp only [if_neg hquote, if_neg hbracket, if_neg hbrace, if_neg ht, if_neg hf, if_neg hn,
      if_pos hstarts]
    exact skipNumber_append number hrest
  | @string raw string =>
    refine skipped_cons fun fuel rest _ _ => ?_
    rw [List.append_assoc, skipWithin, skipBlanks_cons (by decide)]
    exact skipString_append string rest
  | array all listed ih =>
    refine skipped_cons fun fuel rest hfuel _ => ?_
    rw [skipWithin, skipBlanks_cons (by decide)]
    exact skipElements_listed listed (fun v hv => ⟨(all v hv).begins (.inl rfl), ih v hv⟩)
      hfuel rest
  | object keys all listed ih =>
    refine skipped_cons fun fuel rest hfuel _ => ?_
    rw [skipWithin, skipBlanks_cons (by decide)]
    exact skipMembers_listed (fun m hm => ⟨keys m hm, ih m hm⟩) listed hfuel rest

/-- A value is skipped behind blanks, in front of every text that does not go on with it. -/
theorem skipValue_append (hws : Blanks ws) (h : IsValue cs) (hrest : Closed rest) :
    skipValue (ws ++ (cs ++ rest)) = .ok rest := by
  rw [skipValue, skipWithin_blanks hws]
  refine h.skipped _ rest ?_ hrest
  simp only [List.length_append]
  omega

end Backpressure.Json
