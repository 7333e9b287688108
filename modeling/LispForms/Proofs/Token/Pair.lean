import LispForms.Proofs.Token.Literal

/-!
# Pairs — which characters of a text a backslash hides

Read from its start, a text is single characters and pairs, a pair being a backslash and the
character that it hides.  Whether a character at some place is hidden is a fact about the text in
front of it: it is not if that text is made of whole pairs (`Text.Paired`).  The scans for quotes
and the bodies of strings are measured against this.
-/

namespace LispForms

namespace Text

/-- Characters other than backslashes, and pairs of a backslash and any character: nothing hides
the character that comes next. -/
inductive Paired : Text → Prop
  | nil : Paired []
  | plain {c : Char} {text : Text} (hc : c ≠ '\\') (h : Paired text) : Paired (c :: text)
  | pair {c : Char} {text : Text} (h : Paired text) : Paired ('\\' :: c :: text)

/-- A text is made of whole pairs, or ends in a backslash that begins a pair. -/
theorem paired_or_begins_pair (text : Text) :
    Paired text ∨ ∃ before, text = before ++ ['\\'] ∧ Paired before := by
  -- Along the text, by one character or by one pair.
  match text with
  | [] => exact .inl .nil
  | c :: rest =>
    by_cases hc : c = '\\'
    · subst hc
      match rest with
      | [] => exact .inr ⟨[], rfl, .nil⟩
      | d :: rest =>
        rcases paired_or_begins_pair rest with h | ⟨before, hrest, h⟩
        · exact .inl (.pair h)
        · exact .inr ⟨'\\' :: d :: before, by rw [hrest]; rfl, .pair h⟩
    · rcases paired_or_begins_pair rest with h | ⟨before, hrest, h⟩
      · exact .inl (.plain hc h)
      · exact .inr ⟨c :: before, by rw [hrest]; rfl, .plain hc h⟩
termination_by text.length

theorem Paired.append {text rest : Text} (h : Paired text) (hrest : Paired rest) :
    Paired (text ++ rest) := by
  induction h with
  | nil => exact hrest
  | plain hc _ ih => exact .plain hc ih
  | pair _ ih => exact .pair ih

theorem Paired.of_cons {c : Char} {text : Text} (hc : c ≠ '\\') (h : Paired (c :: text)) :
    Paired text := by
  cases h with
  | plain _ h => exact h
  | pair => exact absurd rfl hc

theorem Paired.hidesLineFeed_append {before : Text} (h : Paired before) {rest : Text}
    (hrest : hidesLineFeed false rest = true) : hidesLineFeed false (before ++ rest) = true := by
  induction h with
  | nil => exact hrest
  | plain hc _ ih => simp [hidesLineFeed, hc, ih]
  | pair _ ih => simp [hidesLineFeed, ih]

/-- A line feed is hidden if a backslash stands before it that begins a pair. -/
theorem hidesLineFeed_iff (text : Text) :
    hidesLineFeed false text = true ↔
      ∃ before after, text = before ++ '\\' :: '\n' :: after ∧ Paired before := by
  constructor
  · intro h
    match text with
    | [] => cases h
    | c :: rest =>
      by_cases hc : c = '\\'
      · subst hc
        match rest with
        | [] => cases h
        | d :: rest =>
          by_cases hd : d = '\n'
          · subst hd
            exact ⟨[], rest, rfl, .nil⟩
          · have hmore : hidesLineFeed false rest = true := by simpa [hidesLineFeed, hd] using h
            rcases (hidesLineFeed_iff rest).mp hmore with ⟨before, after, hrest, hpaired⟩
            exact ⟨'\\' :: d :: before, after, by rw [hrest]; rfl, .pair hpaired⟩
      · have hmore : hidesLineFeed false rest = true := by simpa [hidesLineFeed, hc] using h
        rcases (hidesLineFeed_iff rest).mp hmore with ⟨before, after, hrest, hpaired⟩
        exact ⟨c :: before, after, by rw [hrest]; rfl, .plain hc hpaired⟩
  · rintro ⟨before, after, rfl, hpaired⟩
    exact hpaired.hidesLineFeed_append rfl
termination_by text.length

end Text

namespace Token

open Text (Paired isStringLiteral startsWithQuote)

/-! ## Bodies of strings -/

theorem StringBody.paired {body : Text} (h : StringBody body) : Paired body := by
  induction h with
  | nil => exact .nil
  | plain hslash _ _ ih => exact .plain hslash ih
  | pair _ _ ih => exact .pair ih

theorem StringBody.paired_quote {body : Text} (h : StringBody body) : Paired ('"' :: body) :=
  .plain (by decide) h.paired

theorem StringBody.of_cons {c : Char} {body : Text} (hc : c ≠ '\\')
    (h : StringBody (c :: body)) : StringBody body := by
  cases h with
  | plain _ _ h => exact h
  | pair => exact absurd rfl hc

theorem StringBody.of_cons_pair {c : Char} {body : Text} (h : StringBody ('\\' :: c :: body)) :
    StringBody body := by
  cases h with
  | plain hslash => exact absurd rfl hslash
  | pair _ h => exact h

/-- Behind whole pairs the body of a string goes on afresh. -/
theorem StringBody.of_append {front rest : Text} (hfront : Paired front)
    (h : StringBody (front ++ rest)) : StringBody rest := by
  induction hfront with
  | nil => exact h
  | plain hc _ ih => exact ih (h.of_cons hc)
  | pair _ ih => exact ih h.of_cons_pair

theorem not_stringBody_quote (rest : Text) : ¬ StringBody ('"' :: rest) := by
  intro h
  cases h with
  | plain _ hquote => exact hquote rfl

/-! ## Tokens that start with a quote -/

variable {token : Token} {rest : Text}

/-- A token that starts with a quote is a string, which may have its end cut off. -/
theorem Lexeme.exists_body (h : Lexeme token rest) (hquote : startsWithQuote token = true) :
    ∃ body, StringBody body ∧ (token = '"' :: body ++ ['"'] ∨
      token = '"' :: body ∧ (rest = [] ∨ ∃ more, rest = '\\' :: more ∧ AtLineEnd more)) := by
  cases h with
  | spliceUnquote => cases hquote
  | @mark c _ hc =>
    have hmarks : ∀ d ∈ loneMarks, startsWithQuote [d] = false := forall_mem_of_all (by decide)
    rw [hmarks c hc] at hquote
    cases hquote
  | closedString h => exact ⟨_, h, .inl rfl⟩
  | openString h hend => exact ⟨_, h, .inr ⟨rfl, hend⟩⟩
  | bare h =>
    rw [h.startsWithQuote_eq_false] at hquote
    cases hquote

/-- The scanner has matched the closing quote of just those strings that are literals. -/
theorem Lexeme.isStringLiteral_iff_closed (h : Lexeme token rest) :
    isStringLiteral token = true ↔ ∃ body, token = '"' :: body ++ ['"'] ∧ StringBody body := by
  rw [← Token.isStringLiteral_iff_closed]
  exact ⟨fun hliteral => ⟨hliteral, h.hidesLineFeed_eq_false hliteral⟩, And.left⟩

/-- A token that starts with a quote is a literal if it ends in another quote that is not hidden. -/
theorem Lexeme.isStringLiteral_iff_ends (h : Lexeme token rest)
    (hquote : startsWithQuote token = true) :
    isStringLiteral token = true ↔
      token ≠ ['"'] ∧ ∃ front, token = front ++ ['"'] ∧ Paired front := by
  rcases h.exists_body hquote with ⟨body, hbody, rfl | ⟨rfl, -⟩⟩
  · have hliteral : isStringLiteral ('"' :: body ++ ['"']) = true :=
      h.isStringLiteral_iff_closed.mpr ⟨body, rfl, hbody⟩
    exact ⟨fun _ => ⟨by simp, _, rfl, hbody.paired_quote⟩, fun _ => hliteral⟩
  · rw [hbody.isStringLiteral_eq_false]
    constructor
    · intro hliteral
      cases hliteral
    · rintro ⟨hne, front, htoken, hfront⟩
      -- The last character of a body is no quote, unless a backslash hides it.
      cases front with
      | nil => exact absurd htoken hne
      | cons c front =>
        rw [List.cons_append] at htoken
        rcases List.cons.inj htoken with ⟨rfl, rfl⟩
        exact absurd (hbody.of_append (hfront.of_cons (by decide))) (not_stringBody_quote [])

end Token

end LispForms
