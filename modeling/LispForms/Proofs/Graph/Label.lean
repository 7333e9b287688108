import LispForms.Proofs.Graph.Dot
import LispForms.Proofs.Token.Pair

/-!
# Label — a label ends at the quote behind it

Escaping makes any text the body of a string: each quote in it is hidden and no backslash is left
over that could hide the quote behind it.  The escapes can be taken out again, pair by pair.

Main statement: `label_stays_between_quotes`.
-/

namespace LispForms

def Text.replaced (c : Char) (replacement text : Text) : Text :=
  text.flatMap fun d => if d = c then replacement else [d]

namespace Graph

open Text (Paired isStringLiteral replaced)
open Token (StringBody)

/-- The text that a label stands for.  A backslash must hide a backslash or a quote, and a quote
must be hidden. -/
def unescapeLabel? : Text → Option Text
  | [] => some []
  | '\\' :: c :: rest =>
    if c = '\\' || c = '"' then (unescapeLabel? rest).map (c :: ·) else none
  | c :: rest =>
    if c = '\\' || c = '"' then none else (unescapeLabel? rest).map (c :: ·)

theorem escapeLabel_cons (c : Char) (text : Text) :
    escapeLabel (c :: text) = escapeCharacter c ++ escapeLabel text := rfl

/-! ## 1. Two replacements -/

/-- Backslashes are doubled first, so that those of the hidden quotes are not. -/
theorem escapeLabel_eq_replaced (text : Text) :
    escapeLabel text = replaced '"' ['\\', '"'] (replaced '\\' ['\\', '\\'] text) := by
  rw [escapeLabel_eq, replaced, replaced, List.flatMap_assoc]
  congr 1
  funext c
  by_cases hslash : c = '\\'
  · simp [escapeCharacter, hslash]
  · by_cases hquote : c = '"' <;> simp [escapeCharacter, hslash, hquote]

/-! ## 2. The body of a string -/

theorem stringBody_escapeCharacter_append (c : Char) {body : Text} (h : StringBody body) :
    StringBody (escapeCharacter c ++ body) := by
  rw [escapeCharacter]
  split
  · next hc =>
    have hline : c ≠ '\n' := by
      rintro rfl
      exact absurd hc (by decide)
    exact .pair hline h
  · next hc =>
    obtain ⟨hslash, hquote⟩ : c ≠ '\\' ∧ c ≠ '"' := by simpa using hc
    exact .plain hslash hquote h

theorem stringBody_escapeLabel (text : Text) : StringBody (escapeLabel text) := by
  induction text with
  | nil => exact .nil
  | cons c text ih => exact stringBody_escapeCharacter_append c ih

/-! ## 3. The way back -/

theorem unescapeLabel?_escapeCharacter_append (c : Char) (label : Text) :
    unescapeLabel? (escapeCharacter c ++ label) = (unescapeLabel? label).map (c :: ·) := by
  by_cases hc : c = '\\' || c = '"'
  · simp [escapeCharacter, hc, unescapeLabel?]
  · have hslash : c ≠ '\\' := by
      rintro rfl
      exact hc rfl
    rw [escapeCharacter, if_neg hc, List.singleton_append, unescapeLabel?, if_neg hc]
    exact fun _ _ h => absurd h hslash

theorem unescapeLabel?_escapeLabel (text : Text) :
    unescapeLabel? (escapeLabel text) = some text := by
  induction text with
  | nil => rfl
  | cons c text ih =>
    rw [escapeLabel_cons, unescapeLabel?_escapeCharacter_append, ih]
    rfl

theorem eq_escapeLabel_of_unescapeLabel? {label text : Text}
    (h : unescapeLabel? label = some text) : label = escapeLabel text := by
  fun_induction unescapeLabel? label generalizing text with
  | case1 =>
    cases h
    rfl
  | case2 c rest hc ih =>
    rcases Option.map_eq_some_iff.mp h with ⟨more, hmore, rfl⟩
    rw [ih hmore, escapeLabel_cons, escapeCharacter, if_pos hc]
    rfl
  | case3 => cases h
  | case4 => cases h
  | case5 c rest _ hc ih =>
    rcases Option.map_eq_some_iff.mp h with ⟨more, hmore, rfl⟩
    rw [ih hmore, escapeLabel_cons, escapeCharacter, if_neg hc]
    rfl

theorem unescapeLabel?_eq_some_iff {label text : Text} :
    unescapeLabel? label = some text ↔ label = escapeLabel text :=
  ⟨eq_escapeLabel_of_unescapeLabel?, fun h => h ▸ unescapeLabel?_escapeLabel text⟩

/-- A label between its quotes is one string literal, whatever text it stands for: the quotes in the
label are all hidden, and the one behind it is not.  A label stands for one text only, which is what
is left when each pair of a backslash and what it hides is replaced by the latter. -/
theorem label_stays_between_quotes (text : Text) :
    escapeLabel text = replaced '"' ['\\', '"'] (replaced '\\' ['\\', '\\'] text) ∧
    isStringLiteral ('"' :: escapeLabel text ++ ['"']) = true ∧
    Paired (escapeLabel text) ∧
    (¬ ∃ before after, escapeLabel text = before ++ '"' :: after ∧ Paired before) ∧
    (∀ label, unescapeLabel? label = some text ↔ label = escapeLabel text) ∧
    ∀ other, escapeLabel other = escapeLabel text ↔ other = text := by
  have hbody := stringBody_escapeLabel text
  refine ⟨escapeLabel_eq_replaced text,
    ((Token.isStringLiteral_iff_closed _).mpr ⟨_, rfl, hbody⟩).1, hbody.paired, ?_,
    fun label => unescapeLabel?_eq_some_iff, fun other => ⟨fun h => ?_, fun h => by rw [h]⟩⟩
  · rintro ⟨before, after, hlabel, hbefore⟩
    rw [hlabel] at hbody
    exact Token.not_stringBody_quote after (hbody.of_append hbefore)
  · have hother := unescapeLabel?_escapeLabel other
    rw [h, unescapeLabel?_escapeLabel] at hother
    exact (Option.some.inj hother).symm

/-- Were backslashes doubled last, a quote would be hidden no longer. -/
example : isStringLiteral
    ('"' :: replaced '\\' ['\\', '\\'] (replaced '"' ['\\', '"'] ['"']) ++ ['"']) = false := by
  decide

end Graph

end LispForms
