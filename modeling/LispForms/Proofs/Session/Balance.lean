import LispForms.Proofs.Session.Complete
import LispForms.Proofs.Token.Pair

/-!
# Balance — quotes that pair up and strings that close

Two tests ask whether a quotation is left open.  One counts the quotes of a whole text, with an eye
on backslashes only; the other looks at the last token.  Counting is additive: behind whole pairs it
starts afresh (`quotesBalanced_append`).  So it can follow the tokens of a text one by one, and the
two tests agree as long as quotes and backslashes stand in strings.

Main statement: `balance_follows_completeness`.
-/

namespace LispForms

namespace Text

/-! ## 1. Counting quotes -/

namespace QuoteScan

/-- The scan that is inside where the other is outside. -/
def flip (scan : QuoteScan) : QuoteScan := { scan with inside := !scan.inside }

theorem step_flip (scan : QuoteScan) (c : Char) : scan.flip.step c = (scan.step c).flip := by
  unfold step flip
  by_cases hhidden : scan.hidden = true
  · simp [hhidden]
  · by_cases hslash : c = '\\'
    · simp [hhidden, hslash]
    · by_cases hquote : c = '"' <;> simp [hhidden, hslash, hquote]

theorem foldl_flip (scan : QuoteScan) (text : Text) :
    text.foldl step scan.flip = (text.foldl step scan).flip := by
  induction text generalizing scan with
  | nil => rfl
  | cons c text ih => rw [List.foldl_cons, List.foldl_cons, step_flip, ih]

end QuoteScan

theorem Paired.hidden_foldl {text : Text} (h : Paired text) (inside : Bool) :
    (text.foldl QuoteScan.step ⟨inside, false⟩).hidden = false := by
  induction h generalizing inside with
  | nil => rfl
  | @plain c text hc _ ih =>
    rw [List.foldl_cons]
    by_cases hquote : c = '"'
    · have hstep : QuoteScan.step ⟨inside, false⟩ c = ⟨!inside, false⟩ := by
        simp [QuoteScan.step, hquote]
      rw [hstep, ih]
    · have hstep : QuoteScan.step ⟨inside, false⟩ c = ⟨inside, false⟩ := by
        simp [QuoteScan.step, hc, hquote]
      rw [hstep, ih]
  | @pair c text _ ih => exact ih inside

/-- Behind whole pairs the quotes are counted afresh. -/
theorem quotesBalanced_append {text : Text} (h : Paired text) (rest : Text) :
    quotesBalanced (text ++ rest) = (quotesBalanced text == quotesBalanced rest) := by
  have hhidden : (text.foldl QuoteScan.step .start).hidden = false := h.hidden_foldl false
  unfold quotesBalanced
  rw [List.foldl_append]
  generalize text.foldl QuoteScan.step .start = scan at hhidden ⊢
  rcases scan with ⟨inside, hidden⟩
  have hhidden : hidden = false := hhidden
  subst hhidden
  cases inside with
  | false => exact (Bool.true_beq _).symm
  | true =>
    -- The second text is scanned from inside a quotation.
    have hflip : rest.foldl QuoteScan.step ⟨true, false⟩
        = (rest.foldl QuoteScan.step .start).flip := QuoteScan.foldl_flip .start rest
    rw [hflip]
    exact (Bool.false_beq _).symm

theorem quotesBalanced_append_of_balanced {text : Text} (h : Paired text)
    (hbalanced : quotesBalanced text = true) (rest : Text) :
    quotesBalanced (text ++ rest) = quotesBalanced rest := by
  rw [quotesBalanced_append h, hbalanced, Bool.true_beq]

theorem inside_foldl_of_endsAtQuote {hidden : Bool} {text : Text}
    (h : endsAtQuote hidden text = true) :
    (text.foldl QuoteScan.step ⟨true, hidden⟩).inside = false := by
  induction text generalizing hidden with
  | nil => cases hidden <;> cases h
  | cons c text ih =>
    cases hidden with
    | true => exact ih h
    | false =>
      rw [endsAtQuote] at h
      rw [List.foldl_cons, QuoteScan.step]
      split at h
      · next hslash =>
        simp only [hslash, Bool.false_eq_true, if_false, if_true]
        exact ih h
      · next hslash =>
        split at h
        · next hquote =>
          rw [List.isEmpty_iff.mp h]
          simp [hquote]
        · next hquote =>
          simp only [hslash, hquote, Bool.false_eq_true, if_false]
          exact ih h

/-- The two quotes of a literal pair up. -/
theorem quotesBalanced_of_isStringLiteral {text : Text} (h : isStringLiteral text = true) :
    quotesBalanced text = true := by
  cases text with
  | nil => cases h
  | cons c text =>
    simp only [isStringLiteral, Bool.and_eq_true, decide_eq_true_eq] at h
    rcases h with ⟨rfl, hends⟩
    have hinside : (text.foldl QuoteScan.step ⟨true, false⟩).inside = false :=
      inside_foldl_of_endsAtQuote hends
    show (!(text.foldl QuoteScan.step ⟨true, false⟩).inside) = true
    rw [hinside]
    rfl

/-- The text has nothing that counts. -/
theorem paired_and_balanced_of_notMem {text : Text} (hslash : '\\' ∉ text) (hquote : '"' ∉ text) :
    Paired text ∧ quotesBalanced text = true := by
  induction text with
  | nil => exact ⟨.nil, rfl⟩
  | cons c text ih =>
    rw [List.mem_cons, not_or] at hslash hquote
    rcases ih hslash.2 hquote.2 with ⟨hpaired, hbalanced⟩
    have hc : Paired [c] := .plain (Ne.symm hslash.1) .nil
    have hone : quotesBalanced [c] = true := by
      simp [quotesBalanced, QuoteScan.step, QuoteScan.start, Ne.symm hslash.1, Ne.symm hquote.1]
    refine ⟨.plain (Ne.symm hslash.1) hpaired, ?_⟩
    exact (quotesBalanced_append_of_balanced hc hone text).trans hbalanced

end Text

/-! ## 2. Along the tokens -/

namespace Token

open Text (Paired isStringLiteral quotesBalanced startsWithQuote)

theorem Gap.forall_separator {gap rest : Text} (h : Gap gap rest) (hcomment : ';' ∉ gap) :
    ∀ c ∈ gap, c ∈ separators := by
  induction h with
  | nil => exact List.forall_mem_nil _
  | separator hc _ ih =>
    rw [List.mem_cons, not_or] at hcomment
    exact List.forall_mem_cons.mpr ⟨hc, ih hcomment.2⟩
  | comment => exact absurd List.mem_cons_self hcomment

theorem Gap.paired_and_balanced {gap rest : Text} (h : Gap gap rest) (hcomment : ';' ∉ gap) :
    Paired gap ∧ quotesBalanced gap = true := by
  have hseparator := h.forall_separator hcomment
  apply Text.paired_and_balanced_of_notMem
  · exact fun hmem => absurd (hseparator _ hmem) (by decide)
  · exact fun hmem => absurd (hseparator _ hmem) (by decide)

/-- A token that is no string has no quote. -/
theorem Lexeme.quote_notMem {token : Token} {rest : Text} (h : Lexeme token rest)
    (hstring : startsWithQuote token = false) : '"' ∉ token := by
  cases h with
  | spliceUnquote => decide
  | mark hc =>
    have hmarks : ∀ c ∈ loneMarks, '"' ∉ [c] := forall_mem_of_all (by decide)
    exact hmarks _ hc
  | closedString => cases hstring
  | openString => cases hstring
  | bare h => exact fun hmem => h.notMem_delimiters _ hmem (by decide)

theorem StringBody.paired_closed {body : Text} (h : StringBody body) :
    Paired ('"' :: body ++ ['"']) :=
  h.paired_quote.append (.plain (by decide) .nil)

theorem StringBody.quotesBalanced_eq_false {body : Text} (h : StringBody body) :
    quotesBalanced ('"' :: body) = false := by
  have hliteral := ((isStringLiteral_iff_closed _).mpr ⟨body, rfl, h⟩).1
  have hclosed := Text.quotesBalanced_of_isStringLiteral hliteral
  -- The quote at the end makes the number of quotes an even one.
  rw [Text.quotesBalanced_append h.paired_quote] at hclosed
  have hone : quotesBalanced ['"'] = false := by rfl
  rw [hone] at hclosed
  exact beq_iff_eq.mp hclosed

theorem endsClosed_cons_iff {token : Token} {tokens : List Token} (h : ¬ IsOpenString token) :
    Scan.EndsClosed (token :: tokens) ↔ Scan.EndsClosed tokens := by
  cases tokens with
  | nil => exact ⟨fun _ => Scan.endsClosed_nil, fun _ => Scan.endsClosed_singleton h⟩
  | cons => rw [Scan.EndsClosed, Scan.EndsClosed, List.getLast?_cons_cons]

theorem Cut.eq_nil {tokens : List Token} (h : Cut [] tokens) : tokens = [] :=
  h.tokenize_eq.symm

theorem Cut.slash_mem {more : Text} {tokens : List Token} (h : Cut ('\\' :: more) tokens)
    (hmore : AtLineEnd more) : ['\\'] ∈ tokens := by
  have hname : IsName ['\\'] := by decide
  have hend : AtDelimiter more := by
    rcases hmore with rfl | ⟨more, rfl⟩
    · exact atDelimiter_nil
    · exact atDelimiter_cons.mpr (by decide)
  rw [← h.tokenize_eq]
  show ['\\'] ∈ tokenize (['\\'] ++ more)
  rw [tokenize_name hname hend]
  exact List.mem_cons_self

/-- Token by token, the quotes pair up unless a string is open at the end. -/
theorem Cut.quotesBalanced_iff {text : Text} {tokens : List Token} (h : Cut text tokens)
    (hcomment : ';' ∉ text)
    (hslash : ∀ token ∈ tokens, '\\' ∈ token → startsWithQuote token = true) :
    quotesBalanced text = true ↔ Scan.EndsClosed tokens := by
  -- Every gap and every token but the last is made of whole pairs and has no quote left over.
  induction h with
  | last hgap => exact iff_of_true (hgap.paired_and_balanced hcomment).2 Scan.endsClosed_nil
  | @token gap rest token tokens hgap htoken hrest ih =>
    simp only [List.mem_append, not_or] at hcomment
    rw [List.forall_mem_cons] at hslash
    rcases hgap.paired_and_balanced hcomment.1 with ⟨hpaired, hbalanced⟩
    rw [Text.quotesBalanced_append_of_balanced hpaired hbalanced]
    have hlater := ih hcomment.2.2 hslash.2
    cases hquote : startsWithQuote token with
    | false =>
      have hplain : '\\' ∉ token := by
        intro hmem
        rw [hslash.1 hmem] at hquote
        cases hquote
      rcases Text.paired_and_balanced_of_notMem hplain (htoken.quote_notMem hquote) with
        ⟨hpaired, hbalanced⟩
      have hopen : ¬ IsOpenString token := by simp [IsOpenString, hquote]
      rw [Text.quotesBalanced_append_of_balanced hpaired hbalanced, endsClosed_cons_iff hopen]
      exact hlater
    | true =>
      rcases htoken.exists_body hquote with ⟨body, hbody, rfl | ⟨rfl, hend⟩⟩
      · have hliteral := ((isStringLiteral_iff_closed _).mpr ⟨body, rfl, hbody⟩).1
        have hbalanced := Text.quotesBalanced_of_isStringLiteral hliteral
        rw [Text.quotesBalanced_append_of_balanced hbody.paired_closed hbalanced,
          endsClosed_cons_iff hbody.not_isOpenString]
        exact hlater
      · rcases hend with rfl | ⟨more, rfl, hmore⟩
        · -- The string is open at the end of the text.
          rw [hrest.eq_nil, List.append_nil, hbody.quotesBalanced_eq_false]
          refine iff_of_false Bool.false_ne_true fun hclosed => ?_
          exact hclosed _ rfl hbody.isOpenString
        · -- Behind the string stands a backslash by itself, which is no string.
          have hstring := hslash.2 ['\\'] (hrest.slash_mem hmore) List.mem_cons_self
          cases hstring

end Token

/-! ## 3. Whole texts -/

namespace Session

open Text (Paired isStringLiteral quotesBalanced startsWithQuote)
open Token (tokenize)

/-- In a text without semicolons, where backslashes stand only in tokens that start with a quote,
the quotes pair up exactly if the text is complete.  In every literal they pair up; and in two texts
one after the other, the first of which does not end in a backslash that begins a pair, they do so
exactly if they do in both of them or in none. -/
theorem balance_follows_completeness :
    (∀ text : Text, ';' ∉ text →
      (∀ token ∈ tokenize text, '\\' ∈ token → startsWithQuote token = true) →
        quotesBalanced text = isComplete text) ∧
    (∀ text : Text, isStringLiteral text = true → quotesBalanced text = true) ∧
    ∀ text rest : Text, (∀ before, text = before ++ ['\\'] → ¬ Paired before) →
      (quotesBalanced (text ++ rest) = true ↔
        (quotesBalanced text = true ↔ quotesBalanced rest = true)) := by
  refine ⟨fun text hcomment hslash => ?_, fun text => Text.quotesBalanced_of_isStringLiteral,
    fun text rest hends => ?_⟩
  · rw [Bool.eq_iff_iff, isComplete_iff_endsClosed]
    exact (Token.cut_tokenize text).quotesBalanced_iff hcomment hslash
  · rcases Text.paired_or_begins_pair text with hpaired | ⟨before, htext, hbefore⟩
    · rw [Text.quotesBalanced_append hpaired, beq_iff_eq, Bool.eq_iff_iff]
    · exact absurd hbefore (hends before htext)

/-- The hidden quote counts for nothing in `(a "b\"c" ~@d) "e`, where the last string is open.  The
second backslash of `"a\\` begins no pair, so that the quote behind it counts. -/
theorem balance_follows_completeness_escaped_quote :
    quotesBalanced "(a \"b\\\"c\" ~@d) \"e".toList = isComplete "(a \"b\\\"c\" ~@d) \"e".toList ∧
      isComplete "(a \"b\\\"c\" ~@d) \"e".toList = false ∧
      quotesBalanced "\"b\\\"c\"".toList = true ∧
      quotesBalanced (['"', 'a', '\\', '\\'] ++ ['"']) = true := by
  have hslash : ∀ token ∈ tokenize "(a \"b\\\"c\" ~@d) \"e".toList,
      '\\' ∈ token → startsWithQuote token = true := by decide
  have hends : ∀ before, ['"', 'a', '\\', '\\'] = before ++ ['\\'] → ¬ Paired before := by
    intro before htext hpaired
    have hbefore : ['"', 'a', '\\'] = before := List.append_cancel_right htext
    rw [← hbefore] at hpaired
    have hone : Paired ['\\'] := (hpaired.of_cons (by decide)).of_cons (by decide)
    cases hone with
    | plain hc => exact hc rfl
  refine ⟨balance_follows_completeness.1 _ (by decide) hslash, by rfl,
    balance_follows_completeness.2.1 _ (by rfl), ?_⟩
  exact (balance_follows_completeness.2.2 _ _ hends).mpr (iff_of_false (by decide) (by decide))

end Session

end LispForms
