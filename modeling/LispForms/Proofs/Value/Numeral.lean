import LispForms.Proofs.Text.Delimited
import LispForms.Value.Atom
import LispForms.Value.Display
import Mathlib.Algebra.Ring.Int.Defs
import Mathlib.Data.List.Induction

/-!
# Numeral — which tokens are numbers, and which numbers they are

The number that digits denote is told place by place (`Digits`), and an integer is digits behind a
sign or behind none (`Denotes`).  The tokens that are numbers are those that denote an integer of 64
bits.  All others are symbols or strings, in particular numerals that are too large.

Main statement: `atom_number_iff_denotes`.
-/

namespace LispForms

namespace Numeral

/-- ASCII digits, one at least, and the number that they denote in decimal. -/
inductive Digits : Text → Nat → Prop
  | one {d : Nat} (hd : d < 10) : Digits [Nat.digitChar d] d
  | more {digits : Text} {n d : Nat} (h : Digits digits n) (hd : d < 10) :
      Digits (digits ++ [Nat.digitChar d]) (10 * n + d)

/-- Digits behind one sign at most, and the integer that they denote. -/
inductive Denotes : Text → Int → Prop
  | unsigned {digits : Text} {n : Nat} (h : Digits digits n) : Denotes digits n
  | plus {digits : Text} {n : Nat} (h : Digits digits n) : Denotes ('+' :: digits) n
  | minus {digits : Text} {n : Nat} (h : Digits digits n) : Denotes ('-' :: digits) (-n)

variable {text : Text} {n d : Nat}

/-! ## 1. Digits -/

theorem exists_digitChar {c : Char} (h : c.isDigit = true) : ∃ d < 10, c = Nat.digitChar d := by
  rw [Char.isDigit_iff_toNat] at h
  have hlow : 48 ≤ c.toNat := h.1
  have hhigh : c.toNat ≤ 57 := h.2
  refine ⟨c.toNat - 48, by omega, Char.toNat_inj.mp ?_⟩
  rw [Nat.toNat_digitChar_of_lt_ten (by omega)]
  omega

theorem natural?_eq_some_iff : natural? text = some n ↔
    text ≠ [] ∧ (∀ c ∈ text, c.isDigit = true) ∧ Nat.ofDigitChars 10 text 0 = n := by
  simp [natural?, and_assoc]

theorem ofDigitChars_concat (digits : Text) (hd : d < 10) :
    Nat.ofDigitChars 10 (digits ++ [Nat.digitChar d]) 0
      = 10 * Nat.ofDigitChars 10 digits 0 + d := by
  rw [Nat.ofDigitChars_append, Nat.ofDigitChars_cons_digitChar_of_lt_ten hd, Nat.ofDigitChars_nil]

theorem digits_ofDigitChars (hne : text ≠ []) (h : ∀ c ∈ text, c.isDigit = true) :
    Digits text (Nat.ofDigitChars 10 text 0) := by
  -- The digits are put in one after another, the last one in the last place.
  induction text using List.reverseRecOn with
  | nil => exact absurd rfl hne
  | append_singleton digits c ih =>
    rcases List.forall_mem_append.mp h with ⟨hdigits, hc⟩
    rcases exists_digitChar (hc c (List.mem_singleton_self c)) with ⟨d, hd, rfl⟩
    rw [ofDigitChars_concat _ hd]
    by_cases hnil : digits = []
    · subst hnil
      simpa using Digits.one hd
    · exact .more (ih hnil hdigits) hd

theorem natural?_eq_some_iff_digits : natural? text = some n ↔ Digits text n := by
  constructor
  · intro h
    rcases natural?_eq_some_iff.mp h with ⟨hne, hdigits, rfl⟩
    exact digits_ofDigitChars hne hdigits
  · intro h
    rw [natural?_eq_some_iff]
    induction h with
    | one hd => exact ⟨by simp, by simpa using hd, by simpa using ofDigitChars_concat [] hd⟩
    | more h hd ih =>
      rcases ih with ⟨hne, hdigits, hvalue⟩
      refine ⟨by simp, ?_, by rw [ofDigitChars_concat _ hd, hvalue]⟩
      exact List.forall_mem_append.mpr ⟨hdigits, by simpa using hd⟩

/-- The digits that denote a number are those that it is written with, behind any number of zeros.
-/
theorem digits_iff_zeros :
    Digits text n ↔ ∃ zeros, text = List.replicate zeros '0' ++ Text.decimal n := by
  constructor
  · intro h
    induction h with
    | one hd => exact ⟨0, by simp [Text.decimal, Nat.toDigits_of_lt_base hd]⟩
    | @more digits n d h hd ih =>
      rcases ih with ⟨zeros, rfl⟩
      rcases Nat.eq_zero_or_pos n with rfl | hn
      · -- Zero is written with a digit of its own, which now is one more zero in front.
        refine ⟨zeros + 1, ?_⟩
        simp [Text.decimal, Nat.toDigits_of_lt_base hd, List.replicate_succ']
      · refine ⟨zeros, ?_⟩
        rw [Text.decimal, Text.decimal, List.append_assoc, ← Nat.toDigits_of_lt_base hd,
          Nat.toDigits_append_toDigits (by decide) hn hd]
  · rintro ⟨zeros, rfl⟩
    rw [← natural?_eq_some_iff_digits, natural?_eq_some_iff]
    rcases natural?_eq_some_iff.mp (natural?_decimal n) with ⟨hne, hdigits, hvalue⟩
    refine ⟨by simp [hne], List.forall_mem_append.mpr ⟨by simp, hdigits⟩, ?_⟩
    rw [Nat.ofDigitChars_append, Nat.ofDigitChars_replicate_zero, Nat.mul_zero, hvalue]

/-! ## 2. Integers -/

theorem integer?_eq_some_iff_denotes {n : Int} : integer? text = some n ↔ Denotes text n := by
  constructor
  · intro h
    unfold integer? at h
    split at h <;> rcases Option.map_eq_some_iff.mp h with ⟨k, hk, rfl⟩
    · exact .minus (natural?_eq_some_iff_digits.mp hk)
    · exact .plus (natural?_eq_some_iff_digits.mp hk)
    · exact .unsigned (natural?_eq_some_iff_digits.mp hk)
  · intro h
    cases h with
    | unsigned h => exact integer?_of_natural? (natural?_eq_some_iff_digits.mpr h)
    | plus h => simp [integer?, natural?_eq_some_iff_digits.mpr h]
    | minus h => simp [integer?, natural?_eq_some_iff_digits.mpr h]

/-- A token denotes one integer at most. -/
theorem Denotes.unique {n m : Int} (hn : Denotes text n) (hm : Denotes text m) : n = m := by
  rw [← integer?_eq_some_iff_denotes] at hn hm
  exact Option.some.inj (hn.symm.trans hm)

def InRange (n : Int) : Prop := -2 ^ 63 ≤ n ∧ n ≤ 2 ^ 63 - 1

theorem fits_iff {n : Int} : fits n = true ↔ InRange n := by
  simp only [fits, Int64.toInt_minValue, Int64.toInt_maxValue, Bool.and_eq_true, decide_eq_true_eq]
  rfl

theorem inRange_toInt (n : Int64) : InRange n.toInt := fits_iff.mp (fits_toInt n)

theorem toInt_ofInt_of_inRange {n : Int} (h : InRange n) : (Int64.ofInt n).toInt = n :=
  Int64.toInt_ofInt_of_le h.1 (Int.lt_of_le_sub_one h.2)

theorem read?_eq_some_iff {n : Int64} : read? text = some n ↔ Denotes text n.toInt := by
  rw [← integer?_eq_some_iff_denotes, read?]
  cases integer? text with
  | none => simp
  | some m =>
    by_cases hm : fits m = true
    · have hvalue := toInt_ofInt_of_inRange (fits_iff.mp hm)
      simp only [hm, if_true, Option.some.injEq]
      constructor
      · rintro rfl
        exact hvalue.symm
      · rintro rfl
        exact Int64.ofInt_toInt n
    · simp only [hm, if_false, Option.some.injEq, reduceCtorEq, false_iff]
      rintro rfl
      exact hm (fits_toInt n)

/-- The integers in range are those that words have. -/
theorem exists_denotes_toInt_iff :
    (∃ n : Int64, Denotes text n.toInt) ↔ ∃ n, Denotes text n ∧ InRange n := by
  constructor
  · rintro ⟨n, hn⟩
    exact ⟨n.toInt, hn, inRange_toInt n⟩
  · rintro ⟨n, hn, hrange⟩
    exact ⟨Int64.ofInt n, by rwa [toInt_ofInt_of_inRange hrange]⟩

theorem read?_eq_none_iff : read? text = none ↔ ¬ ∃ n, Denotes text n ∧ InRange n := by
  rw [← exists_denotes_toInt_iff, Option.eq_none_iff_forall_ne_some, ← not_exists]
  simp only [read?_eq_some_iff]

end Numeral

namespace Value

open Numeral (Denotes Digits InRange)

theorem ofAtom?_eq_number_iff {token : Token} {n : Int64} :
    ofAtom? token = some (.number n) ↔ Denotes token n.toInt := by
  rw [← Numeral.read?_eq_some_iff, ofAtom?]
  cases Numeral.read? token with
  | some m => simp
  | none =>
    dsimp only
    split
    · split <;> simp
    · simp

theorem ofAtom?_eq_symbol_iff {token name : Token} :
    ofAtom? token = some (.symbol name) ↔
      name = token ∧ Text.startsWithQuote token = false ∧ ¬ ∃ n, Denotes token n ∧ InRange n := by
  rw [← Numeral.read?_eq_none_iff, ofAtom?]
  cases Numeral.read? token with
  | some m => simp
  | none =>
    dsimp only
    split
    · next hquote => split <;> simp [hquote]
    · next hquote => simp [hquote, eq_comm]

/-- A token is a number if it denotes an integer of 64 bits, and the number is that integer; zeros
in front of its digits make no difference.  Of all other tokens those that do not start with a quote
are symbols, with the whole token as their name.  Every number is read back from its written form,
and two tokens have one written form exactly if they denote one integer. -/
theorem atom_number_iff_denotes :
    (∀ (token : Token) (n : Int64), ofAtom? token = some (.number n) ↔ Denotes token n.toInt) ∧
    (∀ token : Token, (∃ n, ofAtom? token = some (.number n)) ↔
      ∃ n, Denotes token n ∧ InRange n) ∧
    (∀ (digits : Text) (n : Nat), Digits digits n ↔
      ∃ zeros, digits = List.replicate zeros '0' ++ Text.decimal n) ∧
    (∀ token name : Token, ofAtom? token = some (.symbol name) ↔
      name = token ∧ Text.startsWithQuote token = false ∧ ¬ ∃ n, Denotes token n ∧ InRange n) ∧
    (∀ n : Int64, ofAtom? (number n).display = some (.number n)) ∧
    ∀ (token other : Token) (n m : Int64), ofAtom? token = some (.number n) →
      ofAtom? other = some (.number m) →
        ((number n).display = (number m).display ↔ ∃ k, Denotes token k ∧ Denotes other k) := by
  refine ⟨fun token n => ofAtom?_eq_number_iff, fun token => ?_,
    fun digits n => Numeral.digits_iff_zeros, fun token name => ofAtom?_eq_symbol_iff,
    fun n => ?_, fun token other n m hn hm => ?_⟩
  · simp only [ofAtom?_eq_number_iff]
    exact Numeral.exists_denotes_toInt_iff
  · rw [display_number, ofAtom?, Numeral.read?_write]
  · rw [display_number, display_number]
    have hn := ofAtom?_eq_number_iff.mp hn
    have hm := ofAtom?_eq_number_iff.mp hm
    constructor
    · intro h
      rw [← Numeral.write_inj h] at hm
      exact ⟨_, hn, hm⟩
    · rintro ⟨k, htoken, hother⟩
      have hvalue : n.toInt = m.toInt := by rw [hn.unique htoken, hm.unique hother]
      rw [Int64.toInt_inj.mp hvalue]

/-- The least number has no counterpart above zero: without its sign the token is a symbol. -/
theorem atom_number_iff_denotes_least :
    ofAtom? "-9223372036854775808".toList = some (.number Int64.minValue) ∧
      ofAtom? "-0009223372036854775808".toList = some (.number Int64.minValue) ∧
      (∃ n, Denotes "-9223372036854775808".toList n ∧
        Denotes "-0009223372036854775808".toList n) ∧
      ofAtom? "9223372036854775808".toList = some (.symbol "9223372036854775808".toList) ∧
      ¬ ∃ n, Denotes "9223372036854775808".toList n ∧ InRange n := by
  obtain ⟨-, -, -, hsymbol, -, hsame⟩ := atom_number_iff_denotes
  have hleast : ofAtom? "-9223372036854775808".toList = some (.number Int64.minValue) := by rfl
  have hzeros : ofAtom? "-0009223372036854775808".toList = some (.number Int64.minValue) := by rfl
  have hlarge : ofAtom? "9223372036854775808".toList
      = some (.symbol "9223372036854775808".toList) := by rfl
  exact ⟨hleast, hzeros, (hsame _ _ _ _ hleast hzeros).mp rfl, hlarge,
    ((hsymbol _ _).mp hlarge).2.2⟩

end Value

end LispForms
