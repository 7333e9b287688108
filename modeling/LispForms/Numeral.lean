import LispForms.Text.Basic

/-!
# Numerals — 64-bit integers in decimal

A numeral is an optional sign and at least one ASCII digit; its value must fit in 64 bits with a
sign. Leading zeros are allowed when reading and never written.

Main statement: `read?_write`, which says that every word is read back from its numeral.
-/

namespace LispForms.Numeral

def natural? (text : Text) : Option Nat :=
  if !text.isEmpty && text.all Char.isDigit then some (Nat.ofDigitChars 10 text 0) else none

/-- The integer that a numeral of any length denotes. -/
def integer? : Text → Option Int
  -- Behind the sign there are digits only, so that a second sign makes no numeral.
  | '-' :: digits => (natural? digits).map fun (n : Nat) => -(n : Int)
  | '+' :: digits => (natural? digits).map fun (n : Nat) => (n : Int)
  | digits => (natural? digits).map fun (n : Nat) => (n : Int)

def fits (n : Int) : Bool := Int64.minValue.toInt ≤ n && n ≤ Int64.maxValue.toInt

def read? (text : Text) : Option Int64 :=
  match integer? text with
  | none => none
  | some n => if fits n then some (Int64.ofInt n) else none

/-- The shortest numeral of an integer: a sign only below zero, no leading zeros. -/
def ofInt (n : Int) : Text :=
  if n < 0 then '-' :: Text.decimal n.natAbs else Text.decimal n.natAbs

def write (n : Int64) : Text := ofInt n.toInt

theorem natural?_decimal (n : Nat) : natural? (Text.decimal n) = some n := by
  have digits : (Nat.toDigits 10 n).all Char.isDigit = true :=
    List.all_eq_true.2 fun c hc => Nat.isDigit_of_mem_toDigits (by decide) (by decide) hc
  simp [natural?, Text.decimal, digits, Nat.ofDigitChars_toDigits]

theorem integer?_of_natural? {text : Text} {n : Nat} (h : natural? text = some n) :
    integer? text = some (n : Int) := by
  unfold integer?
  split
  · simp [natural?] at h
  · simp [natural?] at h
  · simp [h]

theorem integer?_ofInt (n : Int) : integer? (ofInt n) = some n := by
  unfold ofInt
  split
  · next negative =>
    simp only [integer?, natural?_decimal, Option.map_some, Option.some.injEq]
    omega
  · next nonnegative =>
    rw [integer?_of_natural? (natural?_decimal _), Option.some.injEq]
    omega

theorem fits_toInt (n : Int64) : fits n.toInt = true := by
  simp only [fits, Bool.and_eq_true, decide_eq_true_eq]
  exact ⟨n.minValue_le_toInt, Int64.le_iff_toInt_le.1 n.le_maxValue⟩

theorem read?_write (n : Int64) : read? (write n) = some n := by
  simp [read?, write, integer?_ofInt, fits_toInt]

end LispForms.Numeral
