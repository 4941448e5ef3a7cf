import Backpressure.Proofs.Fields
set_option autoImplicit false

/-!
# Where a value that is read ends

A reader of values of some kind and the skipping of any value go through a text in different ways,
but where the reader succeeds both leave the same rest. So a text whose grammar is known is in step
with every reader of it: a value that was read is the value that stands there, even if it was not
known to be of the right kind.
-/

namespace Backpressure.Json

variable {closing : Char} {first : Bool} {cs rest r text : List Char}

/-- What a computation of several steps gives, its last step gives. -/
theorem exists_of_bind_eq_ok {ε α β : Type} {x : Except ε α} {f : α → Except ε β} {b : β}
    (h : x >>= f = .ok b) : ∃ a, x = .ok a ∧ f a = .ok b := by
  cases x with
  | error e => cases h
  | ok a => exact ⟨a, rfl, h⟩

/-! ## Skipping with enough steps -/

/-- Skipping a value leads from a text to a rest, if enough steps are taken. -/
def SkipsTo (cs rest : List Char) : Prop :=
  ∃ n, ∀ fuel, n ≤ fuel → skipWithin fuel cs = .ok rest

/-- Skipping the rest of an array leads from a text to a rest, if enough steps are taken. -/
def ElementsTo (first : Bool) (cs rest : List Char) : Prop :=
  ∃ n, ∀ fuel, n ≤ fuel → skipElements fuel first cs = .ok rest

/-- Skipping the rest of an object leads from a text to a rest, if enough steps are taken. -/
def MembersTo (first : Bool) (cs rest : List Char) : Prop :=
  ∃ n, ∀ fuel, n ≤ fuel → skipMembers fuel first cs = .ok rest

/-- Skipping leads to one rest only. -/
theorem SkipsTo.unique {rest' : List Char} (h : SkipsTo cs rest) (h' : SkipsTo cs rest') :
    rest = rest' := by
  obtain ⟨n, hn⟩ := h
  obtain ⟨m, hm⟩ := h'
  have hskip := hn (max n m) (Nat.le_max_left n m)
  rw [hm (max n m) (Nat.le_max_right n m)] at hskip
  exact (Except.ok.inj hskip).symm

/-- A value is skipped, blanks in front of it or not. -/
theorem IsValue.skipsTo {ws : List Char} (h : IsValue cs) (hws : Blanks ws) (hrest : Closed rest) :
    SkipsTo (ws ++ (cs ++ rest)) rest := by
  refine ⟨3 * cs.length, fun fuel hfuel => ?_⟩
  rw [skipWithin_blanks hws]
  exact h.skipped fuel rest hfuel hrest

/-- More steps than one are one step and others. -/
theorem exists_of_step {α : Type} {f : Nat → Except Fault α} {a : α}
    (h : ∃ n, ∀ fuel, n ≤ fuel → f (fuel + 1) = .ok a) :
    ∃ n, ∀ fuel, n ≤ fuel → f fuel = .ok a := by
  obtain ⟨n, hn⟩ := h
  refine ⟨n + 1, fun fuel hfuel => ?_⟩
  obtain ⟨fuel, rfl⟩ : ∃ m, fuel = m + 1 := ⟨fuel - 1, by omega⟩
  exact hn fuel (Nat.le_of_succ_le_succ hfuel)

theorem SkipsTo.string (hcs : skipBlanks cs = '\x22' :: r) (h : skipString r = .ok rest) :
    SkipsTo cs rest :=
  exists_of_step ⟨0, fun fuel _ => by rw [skipWithin, hcs]; exact h⟩

theorem SkipsTo.null (hcs : skipBlanks cs = 'n' :: r)
    (h : expectWord ['u', 'l', 'l'] r = .ok rest) : SkipsTo cs rest :=
  exists_of_step ⟨0, fun fuel _ => by rw [skipWithin, hcs]; exact h⟩

theorem SkipsTo.array (hcs : skipBlanks cs = '[' :: r) (h : ElementsTo true r rest) :
    SkipsTo cs rest := by
  obtain ⟨n, hn⟩ := h
  exact exists_of_step ⟨n, fun fuel hfuel => by rw [skipWithin, hcs]; exact hn fuel hfuel⟩

theorem SkipsTo.object (hcs : skipBlanks cs = '\x7b' :: r) (h : MembersTo true r rest) :
    SkipsTo cs rest := by
  obtain ⟨n, hn⟩ := h
  exact exists_of_step ⟨n, fun fuel hfuel => by rw [skipWithin, hcs]; exact hn fuel hfuel⟩

theorem ElementsTo.close (h : next ']' first cs = .ok (.close rest)) : ElementsTo first cs rest :=
  exists_of_step ⟨0, fun fuel _ => by rw [skipElements, h]⟩

theorem ElementsTo.part {r' : List Char} (h : next ']' first cs = .ok (.part r))
    (hvalue : SkipsTo r r') (hlater : ElementsTo false r' rest) : ElementsTo first cs rest := by
  obtain ⟨n, hn⟩ := hvalue
  obtain ⟨m, hm⟩ := hlater
  refine exists_of_step ⟨max n m, fun fuel hfuel => ?_⟩
  rw [skipElements, h]
  simp only [hn fuel (Nat.le_trans (Nat.le_max_left n m) hfuel)]
  exact hm fuel (Nat.le_trans (Nat.le_max_right n m) hfuel)

theorem MembersTo.close (h : next '\x7d' first cs = .ok (.close rest)) : MembersTo first cs rest :=
  exists_of_step ⟨0, fun fuel _ => by rw [skipMembers, h]⟩

theorem MembersTo.part {key colon value r' : List Char}
    (h : next '\x7d' first cs = .ok (.part r)) (hquote : expectMark '\x22' r = .ok key)
    (hkey : skipString key = .ok colon) (hcolon : expectMark ':' colon = .ok value)
    (hvalue : SkipsTo value r') (hlater : MembersTo false r' rest) : MembersTo first cs rest := by
  obtain ⟨n, hn⟩ := hvalue
  obtain ⟨m, hm⟩ := hlater
  refine exists_of_step (exists_of_step ⟨max n m, fun fuel hfuel => ?_⟩)
  have hn := hn fuel (Nat.le_trans (Nat.le_max_left n m) hfuel)
  have hm := hm (fuel + 1) (Nat.le_succ_of_le (Nat.le_trans (Nat.le_max_right n m) hfuel))
  rw [skipMembers, h]
  simp only [skipMember, bind, Except.bind, hquote, hkey, hcolon, hn, hm]

/-! ## Marks -/

theorem skipBlanks_of_expectMark {mark : Char} (h : expectMark mark cs = .ok rest) :
    skipBlanks cs = mark :: rest := by
  unfold expectMark at h
  split at h
  · rename_i c tail hcs
    split at h
    · rename_i hc
      cases h
      rw [hcs, hc]
    · cases h
  · cases h

theorem next_of_close (h : expectMark closing cs = .ok rest) (first : Bool) :
    next closing first cs = .ok (.close rest) := by
  rw [next, skipBlanks_of_expectMark h]
  exact if_pos rfl

theorem next_of_first {c : Char} (h : skipBlanks cs = c :: rest) (hc : c ≠ closing) :
    next closing true cs = .ok (.part (c :: rest)) := by
  rw [next, h]
  simp [hc]

/-! ## Readers -/

theorem skipString_of_readString {name : List Char} (h : readString cs = .ok (name, rest)) :
    skipString cs = .ok rest := by
  obtain ⟨raw, hraw, rfl⟩ := spells_of_readString h
  exact skipString_append hraw.isString rest

theorem skipNumber_of_readNumber {number : Number} (h : readNumber cs = .ok (number, rest)) :
    skipNumber cs = .ok rest := by
  unfold readNumber at h
  split at h
  rename_i negative digits hsign
  have hskip : skipNumber cs = (readNumeral digits).map Prod.snd := by
    split at hsign
    · cases hsign
      rfl
    · rename_i hunsigned
      cases hsign
      exact skipNumber_of_ne hunsigned
  rw [hskip]
  split at h
  · cases h
  · rename_i hnumeral
    split at h
    · cases h
    · cases h
      rw [hnumeral]
      rfl

theorem skipsTo_of_readInteger {w : Width} {z : Int} (h : readInteger w cs = .ok (z, rest)) :
    SkipsTo cs rest := by
  unfold readInteger at h
  split at h
  · cases h
  · rename_i c tail hcs
    split at h
    · rename_i hstarts
      split at h
      · cases h
      · rename_i number after hnumber
        split at h
        · cases h
        · cases h
          have hne := ne_of_startsNumber hstarts
          simp only [List.forall_mem_cons] at hne
          obtain ⟨hquote, hbracket, -, hbrace, -, ht, hf, hn, -⟩ := hne
          refine exists_of_step ⟨0, fun fuel _ => ?_⟩
          rw [skipWithin, hcs]
          simp only [if_neg hquote, if_neg hbracket, if_neg hbrace, if_neg ht, if_neg hf,
            if_neg hn, if_pos hstarts]
          exact skipNumber_of_readNumber hnumber
    · cases h

theorem skipsTo_of_readNull {expected : Expected} (h : readNull expected cs = .ok rest) :
    SkipsTo cs rest := by
  unfold readNull at h
  split at h
  · rename_i tail hcs
    exact .null hcs h
  · cases h

theorem skipsTo_of_readPolicy {p : Policy} (h : readPolicy cs = .ok (p, rest)) :
    SkipsTo cs rest := by
  unfold readPolicy at h
  split at h
  · rename_i string hcs
    obtain ⟨⟨name, after⟩, hname, h⟩ := exists_of_bind_eq_ok h
    obtain ⟨q, -, h⟩ := exists_of_bind_eq_ok h
    cases h
    exact .string hcs (skipString_of_readString hname)
  · rename_i member hcs
    obtain ⟨key, hquote, h⟩ := exists_of_bind_eq_ok h
    obtain ⟨⟨name, colon⟩, hname, h⟩ := exists_of_bind_eq_ok h
    obtain ⟨q, -, h⟩ := exists_of_bind_eq_ok h
    obtain ⟨value, hcolon, h⟩ := exists_of_bind_eq_ok h
    obtain ⟨brace, hnull, h⟩ := exists_of_bind_eq_ok h
    obtain ⟨after, hbrace, h⟩ := exists_of_bind_eq_ok h
    cases h
    exact .object hcs (.part (next_of_first (skipBlanks_of_expectMark hquote) (by decide))
      (expectMark_cons '\x22' (by decide) key) (skipString_of_readString hname) hcolon
      (skipsTo_of_readNull hnull) (.close (next_of_close hbrace false)))
  · cases h

/-- An object is gone through in step with skipping if its members are. -/
theorem membersTo_of_readMembers {σ : Type} {member : σ → List Char → Step σ}
    (hmember : ∀ {s key cs t rest}, member s key cs = .ok (t, rest) →
      ∃ value, expectMark ':' cs = .ok value ∧ SkipsTo value rest)
    {fuel : Nat} {s t : σ} (h : readMembers member fuel first s cs = .ok (t, rest)) :
    MembersTo first cs rest := by
  induction fuel generalizing first s cs with
  | zero => cases h
  | succ fuel ih =>
    rw [readMembers] at h
    split at h
    · cases h
    · rename_i hclose
      cases h
      exact .close hclose
    · rename_i hpart
      obtain ⟨key, hquote, h⟩ := exists_of_bind_eq_ok h
      obtain ⟨⟨name, colon⟩, hname, h⟩ := exists_of_bind_eq_ok h
      obtain ⟨⟨u, after⟩, hread, h⟩ := exists_of_bind_eq_ok h
      obtain ⟨value, hcolon, hvalue⟩ := hmember hread
      exact .part hpart hquote (skipString_of_readString hname) hcolon hvalue (ih h)

theorem skipsTo_of_durationMember {parts parts' : DurationParts} {key : List Char}
    (h : durationMember parts key cs = .ok (parts', rest)) :
    ∃ value, expectMark ':' cs = .ok value ∧ SkipsTo value rest := by
  unfold durationMember at h
  split at h
  · split at h
    · cases h
    · obtain ⟨value, hcolon, h⟩ := exists_of_bind_eq_ok h
      obtain ⟨⟨z, after⟩, hinteger, h⟩ := exists_of_bind_eq_ok h
      cases h
      exact ⟨value, hcolon, skipsTo_of_readInteger hinteger⟩
  · split at h
    · split at h
      · cases h
      · obtain ⟨value, hcolon, h⟩ := exists_of_bind_eq_ok h
        obtain ⟨⟨z, after⟩, hinteger, h⟩ := exists_of_bind_eq_ok h
        cases h
        exact ⟨value, hcolon, skipsTo_of_readInteger hinteger⟩
    · cases h

theorem elementsTo_of_readDurationArray {d : Duration}
    (h : readDurationArray cs = .ok (d, rest)) : ElementsTo true cs rest := by
  unfold readDurationArray at h
  obtain ⟨one, hone, h⟩ := exists_of_bind_eq_ok h
  cases one with
  | close after => cases h
  | part seconds =>
    obtain ⟨⟨s, comma⟩, hseconds, h⟩ := exists_of_bind_eq_ok h
    obtain ⟨two, htwo, h⟩ := exists_of_bind_eq_ok h
    cases two with
    | close after => cases h
    | part nanos =>
      obtain ⟨⟨n, bracket⟩, hnanos, h⟩ := exists_of_bind_eq_ok h
      obtain ⟨q, -, h⟩ := exists_of_bind_eq_ok h
      obtain ⟨after, hbracket, h⟩ := exists_of_bind_eq_ok h
      cases h
      exact .part hone (skipsTo_of_readInteger hseconds) (.part htwo
        (skipsTo_of_readInteger hnanos) (.close (next_of_close hbracket false)))

theorem skipsTo_of_readDuration {d : Duration} (h : readDuration cs = .ok (d, rest)) :
    SkipsTo cs rest := by
  unfold readDuration at h
  split at h
  · rename_i members hcs
    obtain ⟨⟨parts, after⟩, hmembers, h⟩ := exists_of_bind_eq_ok h
    obtain ⟨q, -, h⟩ := exists_of_bind_eq_ok h
    cases h
    exact .object hcs (membersTo_of_readMembers skipsTo_of_durationMember hmembers)
  · rename_i elements hcs
    exact .array hcs (elementsTo_of_readDurationArray h)
  · cases h

theorem SkipsTo.of_skipBlanks (h : SkipsTo (skipBlanks cs) rest) : SkipsTo cs rest := by
  obtain ⟨ws, hws, hcs⟩ := exists_blanks cs
  obtain ⟨n, hn⟩ := h
  refine ⟨n, fun fuel hfuel => ?_⟩
  rw [hcs, skipWithin_blanks hws]
  exact hn fuel hfuel

theorem skipsTo_of_readTimeout {timeout : Option Duration}
    (h : readTimeout cs = .ok (timeout, rest)) : SkipsTo cs rest := by
  unfold readTimeout at h
  split at h
  · rename_i tail hcs
    obtain ⟨after, hnull, h⟩ := exists_of_bind_eq_ok h
    cases h
    exact .null hcs hnull
  · obtain ⟨⟨d, after⟩, hduration, h⟩ := exists_of_bind_eq_ok h
    cases h
    exact (skipsTo_of_readDuration hduration).of_skipBlanks

/-- A value of a field that is read ends where any value ends. -/
theorem skipsTo_of_readValue {f : Field} {s t : Settings} (h : f.readValue s cs = .ok (t, rest)) :
    SkipsTo cs rest := by
  cases f with
  | policy | limit d | logInterval | blockTimeout =>
    obtain ⟨⟨a, after⟩, hread, h⟩ := exists_of_bind_eq_ok h
    cases h
    first
    | exact skipsTo_of_readPolicy hread
    | exact skipsTo_of_readInteger hread
    | exact skipsTo_of_readDuration hread
    | exact skipsTo_of_readTimeout hread

end Backpressure.Json
