import LispForms.Proofs.Token.Split
import LispForms.Session.Reply

/-!
# Complete — where a text can be cut by a line break

A text is complete unless the scanner stands inside a string at its end.  A line break behind a
complete text leaves its tokens alone, and what follows is scanned afresh; behind any other text the
line break goes into the last token.
-/

namespace LispForms.Session

open Token (IsOpenString Scan settled standing tokenize)

theorem isComplete_iff_endsClosed (text : Text) :
    isComplete text = true ↔ Scan.EndsClosed (tokenize text) := by
  rw [isComplete, Scan.EndsClosed]
  cases (tokenize text).getLast? with
  | none => simp
  | some last =>
    cases hquote : Text.startsWithQuote last <;> simp [IsOpenString, hquote]

theorem isComplete_iff_standing (text : Text) :
    isComplete text = true ↔ ∀ read, standing text ≠ .string read :=
  (isComplete_iff_endsClosed text).trans (Token.endsClosed_tokenize_iff text)

theorem standing_of_isComplete_eq_false {text : Text} (h : isComplete text = false) :
    ∃ read, standing text = .string read := by
  rw [← Bool.not_eq_true, isComplete_iff_standing] at h
  simpa using h

/-- Behind a complete text a line break separates. -/
theorem tokenize_lineFeed {text : Text} (h : isComplete text = true) (rest : Text) :
    tokenize (text ++ '\n' :: rest) = tokenize text ++ tokenize rest := by
  have hstring := (isComplete_iff_standing text).mp h
  rw [Token.tokenize_append, Scan.tokens_lineFeed hstring, Token.tokenize_eq text,
    List.append_assoc]

/-- Behind any other text a line break goes into the last token, which has not ended. -/
theorem tokenize_lineFeed_of_incomplete {text : Text} (h : isComplete text = false) :
    ∃ kept last, tokenize text = kept ++ [last] ∧
      ∀ rest, ∃ more later,
        tokenize (text ++ '\n' :: rest) = kept ++ (last ++ '\n' :: more) :: later := by
  rcases standing_of_isComplete_eq_false h with ⟨read, hread⟩
  refine ⟨settled text, read.reverse, ?_, fun rest => ?_⟩
  · rw [Token.tokenize_eq, hread]
    rfl
  · rcases Scan.string_tokens_eq_cons ('\n' :: read) rest with ⟨more, later, htokens⟩
    have hstep : (Scan.string read).tokens ('\n' :: rest)
        = (Scan.string ('\n' :: read)).tokens rest := rfl
    refine ⟨more, later, ?_⟩
    rw [Token.tokenize_append, hread, hstep, htokens, List.reverse_cons, List.append_assoc]
    rfl

/-- An incomplete text stays so when its line ends. -/
theorem isComplete_lineFeed {text : Text} (h : isComplete text = false) :
    isComplete (text ++ ['\n']) = false := by
  rcases standing_of_isComplete_eq_false h with ⟨read, hread⟩
  have hstanding : standing (text ++ ['\n']) = .string ('\n' :: read) := by
    rw [Token.standing_append, hread]
    rfl
  rw [← Bool.not_eq_true, isComplete_iff_standing]
  exact fun hstring => hstring _ hstanding

/-- A text is complete exactly if a line break may be put behind it: whatever follows, the tokens of
the whole are the tokens of both parts.  If it is not, the line break makes its last token a longer
one, whatever follows, and leaves the others as they are. -/
theorem isComplete_iff_lineFeed_separates :
    (∀ text : Text, isComplete text = true ↔
      ∀ rest, tokenize (text ++ '\n' :: rest) = tokenize text ++ tokenize rest) ∧
    ∀ text : Text, isComplete text = false →
      ∃ kept last, tokenize text = kept ++ [last] ∧
        ∀ rest, ∃ more later,
          tokenize (text ++ '\n' :: rest) = kept ++ (last ++ '\n' :: more) :: later := by
  refine ⟨fun text => ⟨tokenize_lineFeed, fun hseparates => ?_⟩,
    fun text => tokenize_lineFeed_of_incomplete⟩
  rw [← Bool.not_eq_false]
  intro hincomplete
  rcases tokenize_lineFeed_of_incomplete hincomplete with ⟨kept, last, htext, hmore⟩
  rcases hmore [] with ⟨more, later, hjoined⟩
  -- The token with the line break in it would have to be the one without.
  rw [hseparates [], htext, show tokenize [] = [] from rfl, List.append_nil] at hjoined
  have hlast := (List.cons.inj (List.append_cancel_left hjoined)).1
  have hlength := congrArg List.length hlast
  rw [List.length_append, List.length_cons] at hlength
  omega

/-- `(a "b` is not complete: its string takes the line break in. -/
theorem lineFeed_in_open_string :
    isComplete "(a \"b".toList = false ∧
      ∃ kept last, tokenize "(a \"b".toList = kept ++ [last] ∧
        ∀ rest, ∃ more later,
          tokenize ("(a \"b".toList ++ '\n' :: rest) = kept ++ (last ++ '\n' :: more) :: later := by
  have hincomplete : isComplete "(a \"b".toList = false := by rfl
  exact ⟨hincomplete, isComplete_iff_lineFeed_separates.2 _ hincomplete⟩

end LispForms.Session
