import LispForms.Proofs.Token.Lexeme

/-!
# Cut — a text as gaps and tokens

A cut of a text is a way to write it as gaps and tokens in turn, each in its lexical shape where it
stands.  Every text has one, and the tokens of any cut are those that the scanner gives.
-/

namespace LispForms.Token

/-- The text is a gap, then the first token, a gap, the next token and so on, and a last gap. -/
inductive Cut : Text → List Token → Prop
  | last {gap : Text} (h : Gap gap []) : Cut gap []
  | token {gap rest : Text} {token : Token} {tokens : List Token} (hgap : Gap gap (token ++ rest))
      (htoken : Lexeme token rest) (h : Cut rest tokens) :
      Cut (gap ++ (token ++ rest)) (token :: tokens)

/-- The scanner follows any cut: no other place to end a token was left open. -/
theorem Cut.tokenize_eq {text : Text} {tokens : List Token} (h : Cut text tokens) :
    tokenize text = tokens := by
  induction h with
  | @last gap h =>
    have hgap := h.tokenize_append
    rw [List.append_nil] at hgap
    rw [hgap]
    rfl
  | token hgap htoken _ ih => rw [hgap.tokenize_append, htoken.tokenize_append, ih]

theorem Cut.gap_append {gap text : Text} {tokens : List Token} (hgap : Gap gap text)
    (h : Cut text tokens) : Cut (gap ++ text) tokens := by
  cases h with
  | last h =>
    refine .last (Gap.append ?_ h)
    rwa [List.append_nil]
  | token hmore htoken h =>
    rw [← List.append_assoc]
    exact .token (hgap.append hmore) htoken h

theorem Cut.token_append {token : Token} {rest : Text} {tokens : List Token}
    (htoken : Lexeme token rest) (h : Cut rest tokens) : Cut (token ++ rest) (token :: tokens) := by
  show Cut ([] ++ (token ++ rest)) (token :: tokens)
  exact .token .nil htoken h

/-- Behind an opening quote stands the body of a string, as far as that can go. -/
theorem exists_stringBody (text : Text) : ∃ body rest, text = body ++ rest ∧ StringBody body ∧
    ((∃ more, rest = '"' :: more) ∨ rest = [] ∨ ∃ more, rest = '\\' :: more ∧ AtLineEnd more) := by
  match text with
  | [] => exact ⟨[], [], rfl, .nil, .inr (.inl rfl)⟩
  | c :: more =>
    by_cases hquote : c = '"'
    · exact ⟨[], _, rfl, .nil, .inl ⟨more, by rw [hquote]⟩⟩
    · by_cases hslash : c = '\\'
      · subst hslash
        -- A backslash takes the next character with it, if that is on the same line.
        match more with
        | [] => exact ⟨[], _, rfl, .nil, .inr (.inr ⟨[], rfl, .inl rfl⟩)⟩
        | d :: more =>
          by_cases hd : d = '\n'
          · exact ⟨[], _, rfl, .nil, .inr (.inr ⟨_, rfl, .inr ⟨more, by rw [hd]⟩⟩)⟩
          · rcases exists_stringBody more with ⟨body, rest, hmore, hbody, hrest⟩
            exact ⟨'\\' :: d :: body, rest, by rw [hmore]; rfl, .pair hd hbody, hrest⟩
      · rcases exists_stringBody more with ⟨body, rest, hmore, hbody, hrest⟩
        exact ⟨c :: body, rest, by rw [hmore]; rfl, .plain hslash hquote hbody, hrest⟩
termination_by text.length

theorem exists_lexeme {c : Char} (more : Text) (hseparator : c ∉ separators) (hcomment : c ≠ ';') :
    ∃ token rest, c :: more = token ++ rest ∧ Lexeme token rest := by
  by_cases hmark : c ∈ loneMarks
  · by_cases htilde : c = '~' ∧ more.head? = some '@'
    · rcases htilde with ⟨rfl, hat⟩
      rcases List.head?_eq_some_iff.mp hat with ⟨rest, rfl⟩
      exact ⟨['~', '@'], rest, rfl, .spliceUnquote⟩
    · exact ⟨[c], more, rfl, .mark hmark fun hc hat => htilde ⟨hc, hat⟩⟩
  · by_cases hquote : c = '"'
    · rcases exists_stringBody more with ⟨body, rest, rfl, hbody, hrest⟩
      rw [hquote]
      rcases hrest with ⟨more, rfl⟩ | hend
      · exact ⟨'"' :: body ++ ['"'], more, by simp, .closedString hbody⟩
      · exact ⟨'"' :: body, rest, rfl, .openString hbody hend⟩
    · -- What is left can only begin a bare token, which runs to the next delimiter.
      have hbare : isBare c = true := by
        rw [isBare_iff]
        simp only [delimiters, loneMarks, leadMarks] at hseparator hmark ⊢
        simp_all
      have hword : IsName (c :: more.takeWhile isBare) := by
        refine ⟨by simp, fun d hd => ?_, fun d hd => ?_⟩
        · rw [← isBare_iff]
          rcases List.mem_cons.mp hd with rfl | hd
          · exact hbare
          · exact List.all_eq_true.mp List.all_takeWhile d hd
        · obtain rfl : c = d := by simpa using hd
          exact fun hlead => hmark (List.mem_append_right _ hlead)
      have hend : AtDelimiter (more.dropWhile isBare) := by
        intro d hd
        have hstop := List.head?_dropWhile_not isBare more
        rw [Option.mem_def.mp hd] at hstop
        exact (isBare_eq_false_iff d).1 hstop
      exact ⟨_, _, by rw [List.cons_append, List.takeWhile_append_dropWhile], .bare hword hend⟩

theorem gap_comment (more : Text) :
    ∃ words rest, more = words ++ rest ∧ Gap (';' :: words) rest := by
  refine ⟨more.takeWhile (· ≠ '\n'), more.dropWhile (· ≠ '\n'),
    List.takeWhile_append_dropWhile.symm, ?_⟩
  have hwords : '\n' ∉ more.takeWhile (· ≠ '\n') := fun h => by
    simpa using List.all_eq_true.mp List.all_takeWhile _ h
  have hend : AtLineEnd (more.dropWhile (· ≠ '\n')) := by
    cases h : more.dropWhile (· ≠ '\n') with
    | nil => exact .inl rfl
    | cons c rest =>
      have hc := List.head?_dropWhile_not (fun d => decide (d ≠ '\n')) more
      rw [h] at hc
      exact .inr ⟨rest, by simpa using hc⟩
  rw [← List.append_nil (_ :: _)]
  exact .comment hwords hend .nil

theorem exists_cut (text : Text) : ∃ tokens, Cut text tokens := by
  -- A separator, a comment or a lexeme goes at each step, so the text that is left is shorter.
  match text with
  | [] => exact ⟨[], .last .nil⟩
  | c :: more =>
    by_cases hseparator : c ∈ separators
    · rcases exists_cut more with ⟨tokens, h⟩
      refine ⟨tokens, ?_⟩
      show Cut ([c] ++ more) tokens
      exact h.gap_append (.separator hseparator .nil)
    · by_cases hcomment : c = ';'
      · rcases gap_comment more with ⟨words, rest, hmore, hgap⟩
        have hlength : rest.length < more.length + 1 := by
          rw [hmore, List.length_append]
          omega
        rcases exists_cut rest with ⟨tokens, h⟩
        refine ⟨tokens, ?_⟩
        rw [hcomment, hmore]
        exact h.gap_append hgap
      · rcases exists_lexeme more hseparator hcomment with ⟨token, rest, heq, htoken⟩
        have hlength : rest.length < more.length + 1 := by
          have hpos := List.length_pos_iff.mpr htoken.ne_nil
          have hsum := congrArg List.length heq
          rw [List.length_append, List.length_cons] at hsum
          omega
        rcases exists_cut rest with ⟨tokens, h⟩
        rw [heq]
        exact ⟨token :: tokens, h.token_append htoken⟩
termination_by text.length

theorem cut_tokenize (text : Text) : Cut text (tokenize text) := by
  rcases exists_cut text with ⟨tokens, h⟩
  rwa [h.tokenize_eq]

theorem Cut.lexeme_of_mem {text : Text} {tokens : List Token} (h : Cut text tokens) :
    ∀ token ∈ tokens, ∃ rest, Lexeme token rest := by
  induction h with
  | last => simp
  | @token _ rest _ _ _ htoken _ ih => exact List.forall_mem_cons.mpr ⟨⟨rest, htoken⟩, ih⟩

/-- The tokens of a text are the lexemes between its gaps, whichever way it is written as gaps and
lexemes: nothing else is dropped, and each token ends where the grammar has it end. -/
theorem tokenize_eq_iff_cut (text : Text) (tokens : List Token) :
    tokenize text = tokens ↔ Cut text tokens := by
  constructor
  · rintro rfl
    exact cut_tokenize text
  · exact Cut.tokenize_eq

end LispForms.Token
