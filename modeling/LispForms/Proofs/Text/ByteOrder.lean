import LispForms.Proofs.Text.Utf8

/-!
# Byte order — UTF-8 keeps the order of code points

Texts are compared character by character here.  The bytes that encode them compare the same way,
so that the order of written keys is the order of their UTF-8 bytes.
-/

namespace LispForms.Text

theorem ofNat_lt_ofNat_iff {m n : Nat} (hm : m < 256) (hn : n < 256) :
    UInt8.ofNat m < UInt8.ofNat n ↔ m < n := by
  rw [UInt8.lt_iff_toNat_lt, UInt8.toNat_ofNat_of_lt' hm, UInt8.toNat_ofNat_of_lt' hn]

theorem ofNat_eq_ofNat_iff {m n : Nat} (hm : m < 256) (hn : n < 256) :
    UInt8.ofNat m = UInt8.ofNat n ↔ m = n := by
  rw [← UInt8.toNat_inj, UInt8.toNat_ofNat_of_lt' hm, UInt8.toNat_ofNat_of_lt' hn]

theorem toNat_val_lt (c : Char) : c.val.toNat < 0x110000 := by
  rcases c.valid with hlow | ⟨-, hhigh⟩
  · exact Nat.lt_trans hlow (by decide)
  · exact hhigh

/-- The encoding of a smaller character is smaller, whatever follows either of them. -/
theorem utf8EncodeChar_append_lt {c d : Char} (h : c < d) (rest rest' : Bytes) :
    String.utf8EncodeChar c ++ rest < String.utf8EncodeChar d ++ rest' := by
  have hlt : c.val.toNat < d.val.toNat := h
  have hd := toNat_val_lt d
  have h4096 : ∀ n : Nat, n / 4096 = n / 64 / 64 := fun n => (Nat.div_div_eq_div_mul n 64 64).symm
  have h262144 : ∀ n : Nat, n / 262144 = n / 64 / 64 / 64 := fun n => by
    rw [← h4096, Nat.div_div_eq_div_mul]
  rw [String.utf8EncodeChar, String.utf8EncodeChar]
  -- The longer of two encodings has the higher first byte.  Encodings of one length hold the
  -- digits of the code points to base 64, the high ones first.
  repeat' split
  all_goals
    first
    | omega
    | simp (disch := omega) only [List.cons_append, List.nil_append, List.cons_lt_cons_iff,
        ofNat_lt_ofNat_iff, ofNat_eq_ofNat_iff, h4096, h262144]
      omega

theorem encode_cons (c : Char) (text : Text) :
    encode (c :: text) = String.utf8EncodeChar c ++ encode text := rfl

/-- Texts and their encodings are in the same order. -/
theorem encode_lt_encode {text text' : Text} (h : text < text') : encode text < encode text' := by
  induction text generalizing text' with
  | nil =>
    cases text' with
    | nil => exact absurd h (List.lt_irrefl [])
    | cons d text' =>
      obtain ⟨byte, bytes, hbytes⟩ :=
        List.exists_cons_of_ne_nil (mt encode_eq_nil_iff.mp (List.cons_ne_nil d text'))
      rw [hbytes]
      exact List.nil_lt_cons _ _
  | cons c text ih =>
    cases text' with
    | nil => exact absurd h (List.not_lt_nil _)
    | cons d text' =>
      rw [encode_cons, encode_cons]
      rcases List.cons_lt_cons_iff.mp h with hchar | ⟨rfl, hrest⟩
      · exact utf8EncodeChar_append_lt hchar _ _
      · exact List.append_left_lt (ih hrest)

theorem encode_lt_encode_iff {text text' : Text} : encode text < encode text' ↔ text < text' := by
  refine ⟨fun h => Decidable.byContradiction fun hnlt => ?_, encode_lt_encode⟩
  rcases List.le_iff_lt_or_eq.mp (List.not_lt.mp hnlt) with hlt | rfl
  · exact List.lt_asymm h (encode_lt_encode hlt)
  · exact List.lt_irrefl _ h

end LispForms.Text
