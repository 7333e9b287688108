import LispForms.Text.Quotes
import LispForms.Proofs.Token.Cut

/-!
# Literals — string tokens that close

Two recognisers look at strings: the scanner, whose strings are bodies between quotes, and
`Text.isStringLiteral`, which is asked afterwards.  They differ on a hidden line feed only.
-/

namespace LispForms

/-- A backslash hides a line feed.  The flag says whether the first character is hidden. -/
def Text.hidesLineFeed : Bool → Text → Bool
  | _, [] => false
  | true, c :: rest => c = '\n' || hidesLineFeed false rest
  | false, c :: rest => hidesLineFeed (c = '\\') rest

namespace Token

open Text (isStringLiteral endsAtQuote hidesLineFeed startsWithQuote)

theorem StringBody.endsAtQuote_append {body : Text} (h : StringBody body) (rest : Text) :
    endsAtQuote false (body ++ rest) = endsAtQuote false rest := by
  induction h with
  | nil => rfl
  | plain hslash hquote _ ih => simp [endsAtQuote, hslash, hquote, ih]
  | pair _ _ ih => simp [endsAtQuote, ih]

theorem StringBody.hidesLineFeed_append {body : Text} (h : StringBody body) (rest : Text) :
    hidesLineFeed false (body ++ rest) = hidesLineFeed false rest := by
  induction h with
  | nil => rfl
  | plain hslash _ _ ih => simp [hidesLineFeed, hslash, ih]
  | pair hc _ ih => simp [hidesLineFeed, hc, ih]

theorem StringBody.isStringLiteral_eq_false {body : Text} (h : StringBody body) :
    isStringLiteral ('"' :: body) = false := by
  have hends := h.endsAtQuote_append []
  rw [List.append_nil] at hends
  simp [isStringLiteral, hends, endsAtQuote]

/-- The literals that hide no line feed are the bodies between two quotes. -/
theorem isStringLiteral_iff_closed (text : Text) :
    isStringLiteral text = true ∧ hidesLineFeed false text = false ↔
      ∃ body, text = '"' :: body ++ ['"'] ∧ StringBody body := by
  constructor
  · rintro ⟨hliteral, hhides⟩
    cases text with
    | nil => cases hliteral
    | cons c text =>
      simp only [isStringLiteral, Bool.and_eq_true, decide_eq_true_eq] at hliteral
      rcases hliteral with ⟨rfl, hends⟩
      have hhides : hidesLineFeed false text = false := hhides
      rcases exists_stringBody text with ⟨body, rest, rfl, hbody, hrest⟩
      rw [hbody.endsAtQuote_append] at hends
      rw [hbody.hidesLineFeed_append] at hhides
      -- Only a quote that is not hidden ends the body of a literal that hides no line feed.
      rcases hrest with ⟨more, rfl⟩ | rfl | ⟨more, rfl, rfl | ⟨more, rfl⟩⟩
      · have hmore : more = [] := by simpa [endsAtQuote] using hends
        rw [hmore]
        exact ⟨body, rfl, hbody⟩
      · cases hends
      · cases hends
      · cases hhides
  · rintro ⟨body, rfl, hbody⟩
    constructor
    · simp [isStringLiteral, hbody.endsAtQuote_append, endsAtQuote]
    · show hidesLineFeed false (body ++ ['"']) = false
      rw [hbody.hidesLineFeed_append]
      rfl

theorem IsName.startsWithQuote_eq_false {word : Text} (h : IsName word) :
    startsWithQuote word = false := by
  cases word with
  | nil => rfl
  | cons c rest =>
    have hc : c ≠ '"' := fun hc => h.notMem_delimiters c List.mem_cons_self (hc ▸ by decide)
    simp [startsWithQuote, hc]

theorem Lexeme.hidesLineFeed_eq_false {token : Token} {rest : Text} (h : Lexeme token rest)
    (hliteral : isStringLiteral token = true) : hidesLineFeed false token = false := by
  cases h with
  | spliceUnquote => cases hliteral
  | mark hc =>
    simp only [isStringLiteral, endsAtQuote, Bool.and_false] at hliteral
    cases hliteral
  | @closedString body _ h => exact ((isStringLiteral_iff_closed _).mpr ⟨body, rfl, h⟩).2
  | openString h =>
    rw [h.isStringLiteral_eq_false] at hliteral
    cases hliteral
  | bare h =>
    have hquote := Text.startsWithQuote_of_isStringLiteral hliteral
    rw [h.startsWithQuote_eq_false] at hquote
    cases hquote

end Token

end LispForms
