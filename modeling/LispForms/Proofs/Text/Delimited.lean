import LispForms.Numeral

/-!
# Delimited — texts that can be split off in front of a delimiter

What comes before the first character of another kind is determined by the whole text, and so is
what has been written piece by piece, as long as no piece is written so that it could be taken for
the delimiter or for another piece.  Numbers are determined by their digits.
-/

namespace LispForms.Text

/-- Characters of one kind end where a character of another kind comes. -/
theorem eq_of_delimited {kind : Char → Prop} {text text' rest rest' : Text} {c d : Char}
    (htext : ∀ x ∈ text, kind x) (htext' : ∀ x ∈ text', kind x) (hc : ¬ kind c) (hd : ¬ kind d)
    (h : text ++ c :: rest = text' ++ d :: rest') :
    text = text' ∧ c :: rest = d :: rest' := by
  induction text generalizing text' with
  | nil =>
    cases text' with
    | nil => exact ⟨rfl, h⟩
    | cons x more =>
      have hx : c = x := (List.cons.inj h).1
      exact absurd (hx ▸ htext' x List.mem_cons_self) hc
  | cons x more ih =>
    cases text' with
    | nil =>
      have hx : x = d := (List.cons.inj h).1
      exact absurd (hx ▸ htext x List.mem_cons_self) hd
    | cons y more' =>
      obtain ⟨hxy, hmore⟩ := List.cons.inj h
      obtain ⟨heq, hrest⟩ := ih (List.forall_mem_cons.mp htext).2
        (List.forall_mem_cons.mp htext').2 hmore
      exact ⟨by rw [hxy, heq], hrest⟩

/-! ## 1. Texts written piece by piece -/

/-- Each piece is written so that it can be split off, and so that it does not start with the
character that ends the text. -/
structure SelfDelimiting {α : Type} (write : α → Text) (stop : Char) : Prop where
  split : ∀ {c d : α} {rest rest' : Text},
    write c ++ rest = write d ++ rest' → c = d ∧ rest = rest'
  ne_stop : ∀ (c : α) (rest rest' : Text), write c ++ rest ≠ stop :: rest'

theorem SelfDelimiting.flatMap_split {α : Type} {write : α → Text} {stop : Char}
    (hwrite : SelfDelimiting write stop) {pieces pieces' : List α} {rest rest' : Text}
    (h : pieces.flatMap write ++ stop :: rest = pieces'.flatMap write ++ stop :: rest') :
    pieces = pieces' ∧ rest = rest' := by
  induction pieces generalizing pieces' with
  | nil =>
    cases pieces' with
    | nil => exact ⟨rfl, (List.cons.inj h).2⟩
    | cons d more' =>
      rw [List.flatMap_cons, List.append_assoc] at h
      exact absurd h.symm (hwrite.ne_stop d _ _)
  | cons c more ih =>
    cases pieces' with
    | nil =>
      rw [List.flatMap_cons, List.append_assoc] at h
      exact absurd h (hwrite.ne_stop c _ _)
    | cons d more' =>
      rw [List.flatMap_cons, List.flatMap_cons, List.append_assoc, List.append_assoc] at h
      obtain ⟨hcd, hmore⟩ := hwrite.split h
      obtain ⟨heq, hrest⟩ := ih hmore
      exact ⟨by rw [hcd, heq], hrest⟩

/-! ## 2. Digits -/

theorem exists_digit_of_mem {base n : Nat} (hbase : 1 < base) {c : Char}
    (hc : c ∈ Nat.toDigits base n) : ∃ d < base, c = Nat.digitChar d := by
  induction n using Nat.strongRecOn with
  | ind n ih =>
    rw [Nat.toDigits_eq_if hbase] at hc
    split at hc
    · next hlt => exact ⟨n, hlt, List.mem_singleton.mp hc⟩
    · next hle =>
      rcases List.mem_append.mp hc with hc | hc
      · exact ih (n / base) (Nat.div_lt_self (by omega) hbase) hc
      · exact ⟨n % base, Nat.mod_lt n (by omega), List.mem_singleton.mp hc⟩

/-- More digits than one do not spell a number below the base. -/
theorem toDigits_append_ne {base k n : Nat} {c : Char} (hn : n < base) :
    Nat.toDigits base k ++ [c] ≠ Nat.toDigits base n := by
  rw [Nat.toDigits_of_lt_base hn]
  intro h
  have hnil : Nat.toDigits base k = [] := by
    simpa using (List.append_eq_singleton_iff.mp h).resolve_right (by simp)
  exact Nat.toDigits_ne_nil hnil

/-- A number is told by its digits, which are all different up to base sixteen. -/
theorem toDigits_inj {base n m : Nat} (hbase : 1 < base) (hdigits : base ≤ 16)
    (h : Nat.toDigits base n = Nat.toDigits base m) : n = m := by
  have hdigit : ∀ d < 16, ∀ e < 16, Nat.digitChar d = Nat.digitChar e → d = e := by decide
  have hmod : ∀ k, k % base < 16 := fun k =>
    Nat.lt_of_lt_of_le (Nat.mod_lt k (by omega)) hdigits
  induction n using Nat.strongRecOn generalizing m with
  | ind n ih =>
    rcases Nat.lt_or_ge n base with hn | hn <;> rcases Nat.lt_or_ge m base with hm | hm
    · rw [Nat.toDigits_of_lt_base hn, Nat.toDigits_of_lt_base hm] at h
      exact hdigit n (by omega) m (by omega) (List.cons.inj h).1
    · rw [Nat.toDigits_of_base_le hbase hm] at h
      exact absurd h.symm (toDigits_append_ne hn)
    · rw [Nat.toDigits_of_base_le hbase hn] at h
      exact absurd h (toDigits_append_ne hm)
    · rw [Nat.toDigits_of_base_le hbase hn, Nat.toDigits_of_base_le hbase hm] at h
      obtain ⟨hinit, hlast⟩ := List.append_inj' h rfl
      have hquotient := ih (n / base) (Nat.div_lt_self (by omega) hbase) hinit
      have hremainder := hdigit _ (hmod n) _ (hmod m) (List.cons.inj hlast).1
      rw [← Nat.div_add_mod n base, ← Nat.div_add_mod m base, hquotient, hremainder]

theorem isDigit_of_mem_decimal {n : Nat} {c : Char} (hc : c ∈ decimal n) : c.isDigit = true :=
  Nat.isDigit_of_mem_toDigits (by decide) (by decide) hc

theorem decimal_split {n m : Nat} {c d : Char} {rest rest' : Text} (hc : c.isDigit = false)
    (hd : d.isDigit = false) (h : decimal n ++ c :: rest = decimal m ++ d :: rest') :
    n = m ∧ c :: rest = d :: rest' := by
  have hdigit : ∀ k, ∀ x ∈ decimal k, x.isDigit = true := fun _ _ => isDigit_of_mem_decimal
  obtain ⟨heq, hrest⟩ := eq_of_delimited (hdigit n) (hdigit m) (by simp [hc]) (by simp [hd]) h
  exact ⟨toDigits_inj (by decide) (by decide) heq, hrest⟩

end LispForms.Text

namespace LispForms.Numeral

theorem mem_write {n : Int64} {c : Char} (hc : c ∈ write n) : c.isDigit = true ∨ c = '-' := by
  rw [write, ofInt] at hc
  split at hc
  · rcases List.mem_cons.mp hc with rfl | hc
    · exact .inr rfl
    · exact .inl (Text.isDigit_of_mem_decimal hc)
  · exact .inl (Text.isDigit_of_mem_decimal hc)

theorem write_inj {n m : Int64} (h : write n = write m) : n = m := by
  have hread := read?_write n
  rw [h, read?_write] at hread
  exact (Option.some.inj hread).symm

end LispForms.Numeral
