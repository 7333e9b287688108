import LispForms.Proofs.Text.Delimited
import LispForms.Text.Quoted

/-!
# Quoted — the quoted form of a text is one line, and ends at its closing quote

A character is escaped in one of three ways, and what follows a backslash tells which one it is.
So nothing in the quoted form can be taken for its end, and the text can be read back.
-/

namespace LispForms.Text

/-- The characters with a short escape, and what stands in it behind the backslash. -/
def shortEscapes : List (Char × Char) :=
  [('\x00', '0'), ('\t', 't'), ('\n', 'n'), ('\r', 'r'), ('"', '"'), ('\\', '\\')]

def codePoint (c : Char) : Text := ['\\', 'u', '\x7b'] ++ hexadecimal c.toNat ++ ['\x7d']

theorem escaped_cases (c : Char) :
    (∃ mark, (c, mark) ∈ shortEscapes ∧ escaped c = ['\\', mark]) ∨
    (c ∉ shortEscapes.map Prod.fst ∧ escaped c = [c]) ∨ escaped c = codePoint c := by
  by_cases hshort : c ∈ shortEscapes.map Prod.fst
  · left
    have htable : ∀ entry ∈ shortEscapes, escaped entry.1 = ['\\', entry.2] := by decide
    rcases List.mem_map.mp hshort with ⟨⟨c, mark⟩, hentry, rfl⟩
    exact ⟨mark, hentry, htable _ hentry⟩
  · right
    have hshort' := hshort
    simp only [shortEscapes, List.map_cons, List.map_nil, List.mem_cons, List.not_mem_nil,
      not_or, or_false] at hshort'
    obtain ⟨hnull, htab, hline, hreturn, hquote, hbackslash⟩ := hshort'
    rw [escaped, if_neg hnull, if_neg htab, if_neg hline, if_neg hreturn, if_neg hquote,
      if_neg hbackslash]
    split
    · exact .inl ⟨hshort, rfl⟩
    · exact .inr rfl

/-! ## 1. One line -/

theorem lineFeed_notMem_decimal (n : Nat) : '\n' ∉ decimal n := fun h =>
  absurd (isDigit_of_mem_decimal h) (by decide)

theorem ne_of_mem_hexadecimal {n : Nat} {c d : Char} (hc : c ∈ hexadecimal n)
    (hd : ∀ k < 16, Nat.digitChar k ≠ d) : c ≠ d := by
  obtain ⟨k, hk, rfl⟩ := exists_digit_of_mem (by decide) hc
  exact hd k hk

theorem lineFeed_notMem_escaped (c : Char) : '\n' ∉ escaped c := by
  rcases escaped_cases c with ⟨mark, hmark, heq⟩ | ⟨hshort, heq⟩ | heq
  · have hmarks : ∀ entry ∈ shortEscapes, '\n' ∉ ['\\', entry.2] := by decide
    rw [heq]
    exact hmarks _ hmark
  · rw [heq, List.mem_singleton]
    rintro rfl
    exact hshort (by decide)
  · have hdigits : '\n' ∉ hexadecimal c.toNat := fun h =>
      ne_of_mem_hexadecimal h (by decide) rfl
    rw [heq]
    simp [codePoint, hdigits]

theorem lineFeed_notMem_quoted (text : Text) : '\n' ∉ quoted text := by
  simp [quoted, lineFeed_notMem_escaped]

theorem mem_joined {c : Char} {gap : Text} {items : List Text} (h : c ∈ joined gap items) :
    c ∈ gap ∨ ∃ item ∈ items, c ∈ item := by
  cases items with
  | nil => cases h
  | cons item items =>
    rw [joined_cons] at h
    simp only [List.mem_append, List.mem_flatMap] at h
    rcases h with h | ⟨other, hother, h | h⟩
    · exact .inr ⟨item, List.mem_cons_self, h⟩
    · exact .inl h
    · exact .inr ⟨other, List.mem_cons_of_mem _ hother, h⟩

theorem lineFeed_notMem_joined {gap : Text} {items : List Text} (hgap : '\n' ∉ gap)
    (hitems : ∀ item ∈ items, '\n' ∉ item) : '\n' ∉ joined gap items := by
  intro h
  rcases mem_joined h with h | ⟨item, hitem, h⟩
  · exact hgap h
  · exact hitems item hitem h

/-! ## 2. Where the quoted form ends -/

theorem codePoint_split {c d : Char} {rest rest' : Text}
    (h : codePoint c ++ rest = codePoint d ++ rest') : c = d ∧ rest = rest' := by
  have hbrace : ∀ (e : Char), ∀ x ∈ hexadecimal e.toNat, x ≠ '\x7d' := fun e x hx =>
    ne_of_mem_hexadecimal hx (by decide)
  have hdigits :
      hexadecimal c.toNat ++ '\x7d' :: rest = hexadecimal d.toNat ++ '\x7d' :: rest' := by
    simpa [codePoint] using h
  obtain ⟨hhex, hrest⟩ := eq_of_delimited (hbrace c) (hbrace d) (fun h => h rfl) (fun h => h rfl)
    hdigits
  exact ⟨Char.toNat_inj.mp (toDigits_inj (by decide) (by decide) hhex), (List.cons.inj hrest).2⟩

theorem codePoint_ne_short {c : Char} {entry : Char × Char} (hentry : entry ∈ shortEscapes)
    {rest rest' : Text} : codePoint c ++ rest ≠ ['\\', entry.2] ++ rest' := by
  have hmarks : ∀ entry ∈ shortEscapes, 'u' ≠ entry.2 := by decide
  intro h
  exact hmarks entry hentry (List.cons.inj (List.cons.inj h).2).1

theorem selfDelimiting_escaped : SelfDelimiting escaped '"' := by
  have hbackslash : '\\' ∈ shortEscapes.map Prod.fst := by decide
  refine ⟨fun {c d rest rest'} h => ?_, fun c rest rest' h => ?_⟩
  · -- Characters that are escaped in different ways differ in the first or the second place.
    rcases escaped_cases c with ⟨mark, hmark, heq⟩ | ⟨hshort, heq⟩ | heq <;>
      rcases escaped_cases d with ⟨mark', hmark', heq'⟩ | ⟨hshort', heq'⟩ | heq' <;>
      rw [heq, heq'] at h
    · -- Two short escapes: what follows the backslash tells the character.
      have htable : ∀ entry ∈ shortEscapes, ∀ entry' ∈ shortEscapes,
          entry.2 = entry'.2 → entry.1 = entry'.1 := by decide
      obtain ⟨hmarks, hrest⟩ := List.cons.inj (List.cons.inj h).2
      exact ⟨htable _ hmark _ hmark' hmarks, hrest⟩
    · exact absurd ((List.cons.inj h).1 ▸ hbackslash) hshort'
    · exact absurd h.symm (codePoint_ne_short hmark)
    · exact absurd ((List.cons.inj h).1 ▸ hbackslash) hshort
    · exact List.cons.inj h
    · exact absurd ((List.cons.inj h).1 ▸ hbackslash) hshort
    · exact absurd h (codePoint_ne_short hmark')
    · exact absurd ((List.cons.inj h).1 ▸ hbackslash) hshort'
    · exact codePoint_split h
  · rcases escaped_cases c with ⟨mark, -, heq⟩ | ⟨hshort, heq⟩ | heq <;> rw [heq] at h
    · exact absurd (List.cons.inj h).1 (by decide)
    · exact hshort ((List.cons.inj h).1 ▸ by decide)
    · exact absurd (List.cons.inj h).1 (by decide)

theorem quoted_split {text text' rest rest' : Text}
    (h : quoted text ++ rest = quoted text' ++ rest') : text = text' ∧ rest = rest' := by
  apply selfDelimiting_escaped.flatMap_split
  simpa [quoted] using h

end LispForms.Text
