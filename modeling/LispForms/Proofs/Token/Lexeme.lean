import LispForms.Token.Scanner

/-!
# Lexemes — the lexical grammar of the notation

What a token may look like, and what may stand between two of them, said of the text alone and
without the scanner.  A lexeme is judged together with the text that follows it: a bare token and
an unclosed string have to stop where they do, and `~` must not have an `@` behind it.  The main
fact is `Lexeme.tokenize_append`: the scanner cuts a lexeme off the front of a text and goes on
with the rest as if nothing had been there.
-/

namespace LispForms.Token

/-! ## 1. Characters -/

def separators : List Char := ['\t', '\n', '\x0c', '\r', ' ', ',']

/-- The characters that no bare token holds: separators, brackets, quote marks and the semicolon. -/
def delimiters : List Char :=
  separators ++ ['(', ')', '[', ']', '\x7b', '\x7d', '\x27', '\x60', '"', ';']

/-- The characters that no bare token starts with, though it may hold them further on. -/
def leadMarks : List Char := ['~', '^', '@']

def loneMarks : List Char := ['(', ')', '[', ']', '\x7b', '\x7d', '\x27', '\x60'] ++ leadMarks

/-- What is decided for each of a few characters need not be decided for all there are. -/
theorem forall_mem_of_all {chars : List Char} {p : Char → Prop} [DecidablePred p]
    (h : (chars.all fun c => decide (p c)) = true) : ∀ c ∈ chars, p c := fun c hc =>
  of_decide_eq_true (List.all_eq_true.mp h c hc)

theorem isSeparator_iff (c : Char) : isSeparator c = true ↔ c ∈ separators := by
  simp [isSeparator, separators, or_assoc]

theorem isBare_iff (c : Char) : isBare c = true ↔ c ∉ delimiters := by
  simp [isBare, isSeparator, isBracket, isTick, delimiters, separators, and_assoc]

theorem isBare_eq_false_iff (c : Char) : isBare c = false ↔ c ∈ delimiters := by
  rw [← Bool.not_eq_true, isBare_iff, Decidable.not_not]

/-- Where a token may start, a character that is a token by itself is given out at once; only `~`
has to wait for the next one. -/
theorem start_of_mem_loneMarks : ∀ c ∈ loneMarks, c ≠ '~' → Scan.start c = ([[c]], .gap) :=
  forall_mem_of_all (by decide)

theorem start_of_notMem {c : Char} (hdelimiter : c ∉ delimiters) (hlead : c ∉ leadMarks) :
    Scan.start c = ([], .bare [c]) := by
  simp only [delimiters, separators, leadMarks, List.cons_append, List.nil_append, List.mem_cons,
    List.not_mem_nil, or_false, not_or] at hdelimiter hlead
  simp [Scan.start, isSeparator, standsAlone, isBracket, isTick, hdelimiter, hlead]

/-! ## 2. Gaps, string bodies and names -/

/-- The text is at its end, or at the end of a line. -/
def AtLineEnd (rest : Text) : Prop := rest = [] ∨ ∃ more, rest = '\n' :: more

/-- What may stand between two tokens when the given text comes after it: separators, and comments
that each run to the end of their line. -/
inductive Gap : Text → Text → Prop
  | nil {rest : Text} : Gap [] rest
  | separator {c : Char} {gap rest : Text} (hc : c ∈ separators) (h : Gap gap rest) :
      Gap (c :: gap) rest
  | comment {words gap rest : Text} (hwords : '\n' ∉ words) (hend : AtLineEnd (gap ++ rest))
      (h : Gap gap rest) : Gap (';' :: words ++ gap) rest

/-- What may stand between the quotes of a string: characters other than backslash and quote, and
pairs of a backslash and any character but a line feed. -/
inductive StringBody : Text → Prop
  | nil : StringBody []
  | plain {c : Char} {body : Text} (hslash : c ≠ '\\') (hquote : c ≠ '"') (h : StringBody body) :
      StringBody (c :: body)
  | pair {c : Char} {body : Text} (hc : c ≠ '\n') (h : StringBody body) :
      StringBody ('\\' :: c :: body)

/-- Some characters, none of them a delimiter, the first not a mark. -/
structure IsName (word : Text) : Prop where
  ne_nil : word ≠ []
  notMem_delimiters : ∀ c ∈ word, c ∉ delimiters
  head_notMem_leadMarks : ∀ c ∈ word.head?, c ∉ leadMarks

theorem isName_cons_iff {c : Char} {more : Text} :
    IsName (c :: more) ↔
      c ∉ leadMarks ∧ ((c :: more).all fun d => decide (d ∉ delimiters)) = true := by
  constructor
  · intro h
    exact ⟨h.head_notMem_leadMarks c rfl,
      List.all_eq_true.mpr fun d hd => decide_eq_true (h.notMem_delimiters d hd)⟩
  · intro h
    refine ⟨List.cons_ne_nil _ _, forall_mem_of_all h.2, fun d hd => ?_⟩
    rw [← Option.some.inj hd]
    exact h.1

instance : (word : Text) → Decidable (IsName word)
  | [] => isFalse fun h => h.ne_nil rfl
  | _ :: _ => decidable_of_iff _ isName_cons_iff.symm

/-- The text is at its end or at a delimiter, so that a bare token cannot go on into it. -/
def AtDelimiter (rest : Text) : Prop := ∀ c ∈ rest.head?, c ∈ delimiters

theorem atDelimiter_nil : AtDelimiter [] := by simp [AtDelimiter]

theorem atDelimiter_cons {c : Char} {rest : Text} : AtDelimiter (c :: rest) ↔ c ∈ delimiters := by
  simp [AtDelimiter]

/-- The shapes of a token, given the text after it. -/
inductive Lexeme : Token → Text → Prop
  | spliceUnquote {rest : Text} : Lexeme ['~', '@'] rest
  | mark {c : Char} {rest : Text} (hc : c ∈ loneMarks) (htilde : c = '~' → rest.head? ≠ some '@') :
      Lexeme [c] rest
  | closedString {body rest : Text} (h : StringBody body) : Lexeme ('"' :: body ++ ['"']) rest
  /-- An unclosed string runs to the end of the text, or to a backslash that has no character of
  its line to hide. -/
  | openString {body rest : Text} (h : StringBody body)
      (hend : rest = [] ∨ ∃ more, rest = '\\' :: more ∧ AtLineEnd more) :
      Lexeme ('"' :: body) rest
  | bare {word rest : Text} (h : IsName word) (hend : AtDelimiter rest) : Lexeme word rest

theorem Lexeme.ne_nil {token : Token} {rest : Text} (h : Lexeme token rest) : token ≠ [] := by
  cases h with
  | bare h _ => exact h.ne_nil
  | _ => simp

/-! ## 3. The scanner on a gap -/

theorem tokenize_separator {c : Char} (hc : c ∈ separators) (rest : Text) :
    tokenize (c :: rest) = tokenize rest := by
  simp [tokenize, Scan.tokens, Scan.step, Scan.start, (isSeparator_iff c).2 hc]

/-- A comment swallows its own line and nothing of the next one. -/
theorem comment_tokens {words rest : Text} (hwords : '\n' ∉ words) (hend : AtLineEnd rest) :
    Scan.comment.tokens (words ++ rest) = tokenize rest := by
  induction words with
  | nil =>
    rcases hend with rfl | ⟨more, rfl⟩
    · rfl
    · rw [List.nil_append, tokenize_separator (by decide)]
      rfl
  | cons c words ih =>
    obtain ⟨hc, hmore⟩ : '\n' ≠ c ∧ '\n' ∉ words := by simpa using hwords
    simp [Scan.tokens, Scan.step, Ne.symm hc, ih hmore]

theorem Gap.tokenize_append {gap rest : Text} (h : Gap gap rest) :
    tokenize (gap ++ rest) = tokenize rest := by
  induction h with
  | nil => rfl
  | separator hc _ ih => rw [List.cons_append, tokenize_separator hc, ih]
  | @comment words gap rest hwords hend h ih =>
    have hstart : tokenize (';' :: (words ++ (gap ++ rest)))
        = Scan.comment.tokens (words ++ (gap ++ rest)) := rfl
    rw [List.cons_append, List.cons_append, List.append_assoc, hstart,
      comment_tokens hwords hend, ih]

theorem Gap.append {gap more rest : Text} (h : Gap gap (more ++ rest)) (hmore : Gap more rest) :
    Gap (gap ++ more) rest := by
  generalize htail : more ++ rest = tail at h
  induction h with
  | nil => exact hmore
  | separator hc _ ih => exact .separator hc (ih htail)
  | @comment words gap _ hwords hend _ ih =>
    rw [List.append_assoc]
    refine .comment hwords ?_ (ih htail)
    rwa [List.append_assoc, htail]

/-! ## 4. The scanner on a lexeme -/

theorem bare_tokens {word rest : Text} (read : Text) (hword : ∀ c ∈ word, c ∉ delimiters)
    (hend : AtDelimiter rest) :
    (Scan.bare read).tokens (word ++ rest) = (read.reverse ++ word) :: tokenize rest := by
  induction word generalizing read with
  | nil =>
    cases rest with
    | nil => simp [Scan.tokens, Scan.finish, tokenize]
    | cons c more =>
      have hc : isBare c = false := (isBare_eq_false_iff c).2 (atDelimiter_cons.1 hend)
      simp [Scan.tokens, Scan.step, hc, tokenize]
  | cons c word ih =>
    have hc : isBare c = true := (isBare_iff c).2 (hword c List.mem_cons_self)
    have hmore := ih (c :: read) fun d hd => hword d (List.mem_cons_of_mem c hd)
    simpa [Scan.tokens, Scan.step, hc] using hmore

theorem string_tokens {body : Text} (h : StringBody body) (read rest : Text) :
    (Scan.string read).tokens (body ++ rest)
      = (Scan.string (body.reverse ++ read)).tokens rest := by
  induction h generalizing read with
  | nil => rfl
  | plain hslash hquote _ ih => simp [Scan.tokens, Scan.step, hslash, hquote, ih]
  | pair hc _ ih => simp [Scan.tokens, Scan.step, hc, ih]

theorem tokenize_quote (rest : Text) : tokenize ('"' :: rest) = (Scan.string ['"']).tokens rest :=
  rfl

theorem tokenize_name {word rest : Text} (h : IsName word) (hend : AtDelimiter rest) :
    tokenize (word ++ rest) = word :: tokenize rest := by
  rcases List.exists_cons_of_ne_nil h.ne_nil with ⟨c, more, rfl⟩
  have hdelimiter : c ∉ delimiters := h.notMem_delimiters c List.mem_cons_self
  have hlead : c ∉ leadMarks := h.head_notMem_leadMarks c rfl
  have hstart := start_of_notMem hdelimiter hlead
  have hmore := bare_tokens [c] (fun d hd => h.notMem_delimiters d (List.mem_cons_of_mem c hd)) hend
  simpa [tokenize, Scan.tokens, Scan.step, hstart] using hmore

theorem tokenize_mark {c : Char} {rest : Text} (hc : c ∈ loneMarks)
    (htilde : c = '~' → rest.head? ≠ some '@') : tokenize (c :: rest) = [c] :: tokenize rest := by
  -- Only `~` has to wait for the character behind it.
  by_cases h : c = '~'
  · subst h
    cases rest with
    | nil => rfl
    | cons d more =>
      have hd : d ≠ '@' := fun hd => htilde rfl (congrArg some hd)
      have hstart : tokenize ('~' :: d :: more) = Scan.tilde.tokens (d :: more) := rfl
      rw [hstart]
      simp [Scan.tokens, Scan.step, hd, tokenize]
  · simp [tokenize, Scan.tokens, Scan.step, start_of_mem_loneMarks c hc h]

/-- Maximal munch: the scanner cuts a lexeme off whole and reads the rest afresh. -/
theorem Lexeme.tokenize_append {token : Token} {rest : Text} (h : Lexeme token rest) :
    tokenize (token ++ rest) = token :: tokenize rest := by
  cases h with
  | spliceUnquote => rfl
  | mark hc htilde => exact tokenize_mark hc htilde
  | @closedString body _ h =>
    rw [List.cons_append, List.cons_append, List.append_assoc, tokenize_quote, string_tokens h]
    simp [Scan.tokens, Scan.step, tokenize]
  | @openString body _ h hend =>
    rw [List.cons_append, tokenize_quote, string_tokens h]
    rcases hend with rfl | ⟨more, rfl, rfl | ⟨more, rfl⟩⟩
    · simp [Scan.tokens, Scan.finish, tokenize]
    · -- At the end of the text the backslash has nothing to hide, and is a bare token.
      simp [Scan.tokens, Scan.step, Scan.finish, Scan.start, tokenize, isSeparator, standsAlone,
        isBracket, isTick]
    · -- The backslash is left alone in front of the line feed, and is a bare token there.
      have hslash : tokenize ('\\' :: '\n' :: more) = ['\\'] :: tokenize ('\n' :: more) :=
        bare_tokens ['\\'] (List.forall_mem_nil _) (atDelimiter_cons.2 (by decide))
      rw [hslash, tokenize_separator (by decide)]
      simp [Scan.tokens, Scan.step, tokenize]
  | bare h hend => exact tokenize_name h hend

end LispForms.Token
