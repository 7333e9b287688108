import LispForms.Proofs.Reader.Depth
import LispForms.Proofs.Token.Pair

/-!
# Literal — the texts that are read as one string

The scanner finds where a string ends, and `Text.isStringLiteral` says afterwards whether it has
ended.  A text is read as the string that it is just if the two agree on it, and they disagree on a
hidden line feed only; on what the scanner has cut out of a text they always agree.

Main statement: `string_recognisers_agree`.
-/

namespace LispForms.Reader

open Text (Paired isStringLiteral startsWithQuote)
open Token (Lexeme StringBody tokenize)

variable {text : Text} {token : Token}

theorem tokenize_closedString {body : Text} (h : StringBody body) :
    tokenize ('"' :: body ++ ['"']) = ['"' :: body ++ ['"']] := by
  have htoken : Lexeme ('"' :: body ++ ['"']) [] := .closedString h
  have happend := htoken.tokenize_append
  rw [List.append_nil] at happend
  rw [happend]
  rfl

/-- A string between its quotes is one token, and read as itself. -/
theorem read_closedString {body : Text} (h : StringBody body) :
    read ('"' :: body ++ ['"']) = .ok (.string ('"' :: body ++ ['"'])) := by
  have hliteral := ((Token.isStringLiteral_iff_closed _).mpr ⟨body, rfl, h⟩).1
  have hquote : startsWithQuote ('"' :: body ++ ['"']) = true := rfl
  apply read_eq_ok_iff.mpr
  exact ⟨_, [], tokenize_closedString h, .string (Token.notMem_announcers_of_startsWithQuote hquote)
    (Numeral.read?_eq_none_of_startsWithQuote hquote) hliteral⟩

theorem read_eq_string_iff (text : Text) :
    read text = .ok (.string text) ↔
      isStringLiteral text = true ∧ Text.hidesLineFeed false text = false := by
  constructor
  · intro h
    exact string_wellSpelt_of_read h (Value.mem_nodes_self _)
  · intro h
    rcases (Token.isStringLiteral_iff_closed text).mp h with ⟨body, rfl, hbody⟩
    exact read_closedString hbody

/-- A text is read as a string that is the whole of it exactly if it is a literal in which no
backslash that begins a pair stands before a line feed.  Of the tokens that start with a quote just
those are literals whose closing quote the scanner has found: those that end in a quote, other than
the first, which is not hidden. -/
theorem string_recognisers_agree :
    (∀ text : Text, read text = .ok (.string text) ↔
      isStringLiteral text = true ∧
        ∀ before after, text = before ++ '\\' :: '\n' :: after → ¬ Paired before) ∧
    ∀ text : Text, ∀ token ∈ tokenize text, startsWithQuote token = true →
      (isStringLiteral token = true ↔ ∃ body, token = '"' :: body ++ ['"'] ∧ StringBody body) ∧
      (isStringLiteral token = true ↔
        token ≠ ['"'] ∧ ∃ front, token = front ++ ['"'] ∧ Paired front) := by
  constructor
  · intro text
    rw [read_eq_string_iff, ← Bool.not_eq_true, Text.hidesLineFeed_iff]
    apply and_congr_right'
    constructor
    · intro h before after htext hpaired
      exact h ⟨before, after, htext, hpaired⟩
    · rintro h ⟨before, after, htext, hpaired⟩
      exact h before after htext hpaired
  · intro text token htoken hquote
    rcases (Token.cut_tokenize text).lexeme_of_mem token htoken with ⟨rest, hlexeme⟩
    exact ⟨hlexeme.isStringLiteral_iff_closed, hlexeme.isStringLiteral_iff_ends hquote⟩

/-- The last quote of `"a\""` is not hidden, and the text is read as this string.  Behind another
string the quote in `"b\"` is hidden, so that this token ends in a quote and is no literal. -/
theorem string_recognisers_agree_hidden_quote :
    read "\"a\\\"\"".toList = .ok (.string "\"a\\\"\"".toList) ∧
      "\"b\\\"".toList ∈ tokenize "\"a\" \"b\\\"".toList ∧
      isStringLiteral "\"b\\\"".toList = false ∧
      ¬ ∃ front, "\"b\\\"".toList = front ++ ['"'] ∧ Paired front := by
  have hmem : "\"b\\\"".toList ∈ tokenize "\"a\" \"b\\\"".toList := by decide
  have hliteral : isStringLiteral "\"b\\\"".toList = false := by rfl
  have hends := (string_recognisers_agree.2 _ _ hmem rfl).2
  refine ⟨(string_recognisers_agree.1 _).mpr ⟨by rfl, ?_⟩, hmem, hliteral, fun hfront => ?_⟩
  · intro before after htext
    have hline : '\n' ∉ "\"a\\\"\"".toList := by decide
    rw [htext] at hline
    exact absurd (by simp) hline
  · rw [hliteral] at hends
    exact Bool.false_ne_true (hends.mpr ⟨by decide, hfront⟩)

end LispForms.Reader
