import LispForms.Text.Utf8

/-!
# UTF-8 — decoding undoes encoding, and a line feed is a byte of its own

Bytes decode to a text exactly if they are its encoding.  The byte of a line feed stands for a line
feed wherever it occurs, as all bytes of the longer sequences are above the ASCII range.  So bytes
are decoded apart before a line feed and behind it (`decode?_append_lineFeed`).
-/

namespace LispForms.Text

theorem encode_append (text rest : Text) : encode (text ++ rest) = encode text ++ encode rest :=
  List.flatMap_append

theorem encode_lineFeed (rest : Text) : encode ('\n' :: rest) = 10 :: encode rest := rfl

theorem encode_eq_nil_iff {text : Text} : encode text = [] ↔ text = [] := by
  cases text with
  | nil => simp [encode]
  | cons c text => simp [encode, String.utf8EncodeChar_ne_nil]

/-! ## 1. There and back -/

theorem toByteArray_encode (text : Text) :
    (encode text).toByteArray = (String.ofList text).toByteArray :=
  String.toByteArray_ofList.symm

theorem fromUTF8?_eq_some_iff {bytes : ByteArray} {s : String} :
    String.fromUTF8? bytes = some s ↔ s.toByteArray = bytes := by
  rw [String.fromUTF8?]
  constructor
  · intro h
    split at h
    · cases h
      rfl
    · cases h
  · rintro rfl
    rw [dif_pos s.isValidUTF8]
    rfl

theorem decode?_eq_some_iff {bytes : Bytes} {text : Text} :
    decode? bytes = some text ↔ bytes = encode text := by
  rw [decode?, Option.map_eq_some_iff]
  constructor
  · rintro ⟨s, hs, rfl⟩
    have harray := fromUTF8?_eq_some_iff.mp hs
    have hlist : (encode s.toList).toByteArray = s.toByteArray := by
      rw [toByteArray_encode, String.ofList_toList]
    rw [harray] at hlist
    have hdata := congrArg (fun array => array.data.toList) hlist
    rw [List.toList_data_toByteArray] at hdata
    exact hdata.symm
  · rintro rfl
    refine ⟨String.ofList text, fromUTF8?_eq_some_iff.mpr ?_, String.toList_ofList⟩
    rw [← toByteArray_encode]
    exact ByteArray.ext List.data_toByteArray

theorem decode?_encode (text : Text) : decode? (encode text) = some text :=
  decode?_eq_some_iff.mpr rfl

/-! ## 2. Line feeds -/

theorem toNat_of_lineFeed_eq {n : Nat} (hn : n < 256) (h : (10 : UInt8) = .ofNat n) : n = 10 := by
  have hbyte := congrArg UInt8.toNat h
  rw [UInt8.toNat_ofNat_of_lt' hn] at hbyte
  exact hbyte.symm

/-- Of the four lengths of a character's encoding, only that of one byte stays below 128. -/
theorem lineFeed_mem_utf8EncodeChar_iff (c : Char) :
    10 ∈ String.utf8EncodeChar c ↔ c = '\n' := by
  constructor
  · intro h
    have hhigh : ∀ n, 128 ≤ n → n < 256 → (10 : UInt8) ≠ .ofNat n := fun n hlow hn hbyte => by
      have := toNat_of_lineFeed_eq hn hbyte
      omega
    rw [String.utf8EncodeChar] at h
    split at h
    · next hlow =>
      have hc : c.val.toNat = 10 := toNat_of_lineFeed_eq (by omega) (List.mem_singleton.mp h)
      exact Char.ext (UInt32.toNat_inj.mp hc)
    split at h
    · simp only [List.mem_cons, List.not_mem_nil, or_false] at h
      rcases h with h | h <;> exact absurd h (hhigh _ (by omega) (by omega))
    split at h
    · simp only [List.mem_cons, List.not_mem_nil, or_false] at h
      rcases h with h | h | h <;> exact absurd h (hhigh _ (by omega) (by omega))
    · simp only [List.mem_cons, List.not_mem_nil, or_false] at h
      rcases h with h | h | h | h <;> exact absurd h (hhigh _ (by omega) (by omega))
  · rintro rfl
    decide

theorem lineFeed_mem_encode_iff {text : Text} : 10 ∈ encode text ↔ '\n' ∈ text := by
  simp [encode, lineFeed_mem_utf8EncodeChar_iff]

theorem count_lineFeed_encode (text : Text) : (encode text).count 10 = text.count '\n' := by
  induction text with
  | nil => rfl
  | cons c text ih =>
    show (String.utf8EncodeChar c ++ encode text).count 10 = _
    rw [List.count_append, List.count_cons, ih]
    by_cases hc : c = '\n'
    · rw [hc]
      exact Nat.add_comm _ _
    · rw [List.count_eq_zero_of_not_mem (mt (lineFeed_mem_utf8EncodeChar_iff c).mp hc)]
      simp [hc]

/-! ## 3. Cuts at a line feed -/

/-- A line feed in bytes comes behind what has none. -/
theorem exists_append_of_lineFeed {front rest before after : Bytes} (hfront : 10 ∉ front)
    (h : front ++ rest = before ++ 10 :: after) :
    ∃ more, before = front ++ more ∧ rest = more ++ 10 :: after := by
  rcases List.append_eq_append_iff.mp h with ⟨more, hbefore, hrest⟩ | ⟨more, hsplit, hafter⟩
  · exact ⟨more, hbefore, hrest⟩
  · cases more with
    | nil => exact ⟨[], by rw [hsplit]; simp, hafter.symm⟩
    | cons byte more =>
      rw [hsplit, ← (List.cons.inj hafter).1] at hfront
      exact absurd (by simp) hfront

/-- Where the encoding of a text is cut at a line feed, the text is cut. -/
theorem encode_eq_append_lineFeed_iff {text : Text} {before after : Bytes} :
    encode text = before ++ 10 :: after ↔
      ∃ first later, text = first ++ '\n' :: later ∧ encode first = before ∧
        encode later = after := by
  constructor
  · intro h
    induction text generalizing before with
    | nil => exact absurd h.symm (by simp [encode])
    | cons c text ih =>
      by_cases hc : c = '\n'
      · rw [hc, encode_lineFeed] at h
        rcases List.cons_eq_append_iff.mp h with ⟨rfl, hafter⟩ | ⟨more, rfl, htext⟩
        · exact ⟨[], text, by rw [hc]; rfl, rfl, (List.cons.inj hafter).2.symm⟩
        · rcases ih htext with ⟨first, later, rfl, rfl, hlater⟩
          exact ⟨'\n' :: first, later, by rw [hc]; rfl, rfl, hlater⟩
      · -- The bytes of another character stand before the line feed, all of them.
        have hchar : 10 ∉ String.utf8EncodeChar c := mt (lineFeed_mem_utf8EncodeChar_iff c).mp hc
        rcases exists_append_of_lineFeed hchar h with ⟨more, rfl, htext⟩
        rcases ih htext with ⟨first, later, rfl, rfl, hlater⟩
        exact ⟨c :: first, later, rfl, rfl, hlater⟩
  · rintro ⟨first, later, rfl, rfl, rfl⟩
    rw [encode_append, encode_lineFeed]

/-- Bytes are decoded as what stands before a line feed is, and what stands behind it. -/
theorem decode?_append_lineFeed (before after : Bytes) :
    decode? (before ++ 10 :: after) =
      (decode? before).bind fun first =>
        (decode? after).map fun later => first ++ '\n' :: later := by
  ext text
  simp only [Option.bind_eq_some_iff, Option.map_eq_some_iff, decode?_eq_some_iff]
  rw [eq_comm, encode_eq_append_lineFeed_iff]
  constructor
  · rintro ⟨first, later, rfl, rfl, rfl⟩
    exact ⟨first, rfl, later, rfl, rfl⟩
  · rintro ⟨first, rfl, later, rfl, rfl⟩
    exact ⟨first, later, rfl, rfl, rfl⟩

end LispForms.Text
