import LispForms.Proofs.Token.Literal

/-!
# Split — a text scanned in two parts

The scanner stops after the first part of a text with some tokens completed and a state that holds
what it has read of the next one (`Scan.run`); the second part is read on from there
(`Scan.tokens_append`).  What a state can hold (`Scan.Sound`) is kept by every step.
-/

namespace LispForms.Token

open Text (isStringLiteral startsWithQuote)

/-- A token that starts as a string and is none: it has no closing quote. -/
def IsOpenString (token : Token) : Prop :=
  startsWithQuote token = true ∧ isStringLiteral token = false

instance (token : Token) : Decidable (IsOpenString token) := inferInstanceAs (Decidable (_ ∧ _))

theorem StringBody.concat {body : Text} (h : StringBody body) {c : Char} (hslash : c ≠ '\\')
    (hquote : c ≠ '"') : StringBody (body ++ [c]) := by
  induction h with
  | nil => exact .plain hslash hquote .nil
  | plain hs hq _ ih => exact .plain hs hq ih
  | pair hc _ ih => exact .pair hc ih

theorem StringBody.concat_pair {body : Text} (h : StringBody body) {c : Char} (hc : c ≠ '\n') :
    StringBody (body ++ ['\\', c]) := by
  induction h with
  | nil => exact .pair hc .nil
  | plain hs hq _ ih => exact .plain hs hq ih
  | pair hd _ ih => exact .pair hd ih

theorem StringBody.isOpenString {body : Text} (h : StringBody body) :
    IsOpenString ('"' :: body) :=
  ⟨rfl, h.isStringLiteral_eq_false⟩

theorem not_isOpenString_of_head {c : Char} {more : Text} (hc : c ≠ '"') :
    ¬ IsOpenString (c :: more) := by
  intro h
  have hquote : c = '"' := by simpa [startsWithQuote] using h.1
  exact hc hquote

theorem StringBody.not_isOpenString {body : Text} (h : StringBody body) :
    ¬ IsOpenString ('"' :: body ++ ['"']) := by
  intro hopen
  have hliteral := ((isStringLiteral_iff_closed _).mpr ⟨body, rfl, h⟩).1
  rw [hopen.2] at hliteral
  cases hliteral

namespace Scan

/-! ## 1. Two parts -/

/-- The tokens that the text completes, and the state after it. -/
def run : Scan → Text → List Token × Scan
  | scan, [] => ([], scan)
  | scan, c :: rest =>
    let after := scan.step c
    let later := run after.2 rest
    (after.1 ++ later.1, later.2)

theorem run_append (scan : Scan) (text rest : Text) :
    scan.run (text ++ rest) = ((scan.run text).1 ++ ((scan.run text).2.run rest).1,
      ((scan.run text).2.run rest).2) := by
  induction text generalizing scan with
  | nil => rfl
  | cons c text ih => simp only [List.cons_append, run, ih, List.append_assoc]

theorem tokens_append (scan : Scan) (text rest : Text) :
    scan.tokens (text ++ rest) = (scan.run text).1 ++ (scan.run text).2.tokens rest := by
  induction text generalizing scan with
  | nil => rfl
  | cons c text ih => simp only [List.cons_append, tokens, run, ih, List.append_assoc]

theorem tokens_eq_run (scan : Scan) (text : Text) :
    scan.tokens text = (scan.run text).1 ++ (scan.run text).2.finish := by
  have happend := scan.tokens_append text []
  rwa [List.append_nil] at happend

/-! ## 2. What a state can hold -/

/-- A bare token does not start with a quote; a string starts with one and has had no other. -/
def Sound : Scan → Prop
  | .gap => True
  | .comment => True
  | .tilde => True
  | .bare read => ∃ c more, read.reverse = c :: more ∧ c ≠ '"'
  | .string read => ∃ body, read.reverse = '"' :: body ∧ StringBody body
  | .escape read => ∃ body, read.reverse = '"' :: body ∧ StringBody body

theorem sound_gap : Scan.gap.Sound := trivial

/-- The last of the tokens, if there are any, is no open string. -/
def EndsClosed (tokens : List Token) : Prop := ∀ token ∈ tokens.getLast?, ¬ IsOpenString token

theorem endsClosed_nil : EndsClosed [] := by simp [EndsClosed]

theorem endsClosed_singleton {token : Token} (h : ¬ IsOpenString token) : EndsClosed [token] := by
  simpa [EndsClosed] using h

theorem EndsClosed.append {tokens more : List Token} (h : EndsClosed tokens)
    (hmore : EndsClosed more) : EndsClosed (tokens ++ more) := by
  intro token htoken
  rw [List.getLast?_append] at htoken
  cases hlast : more.getLast? with
  | none =>
    rw [hlast] at htoken
    exact h token htoken
  | some last =>
    rw [hlast] at htoken
    exact hmore token (hlast ▸ htoken)

theorem sound_start (c : Char) : (start c).2.Sound ∧ EndsClosed (start c).1 := by
  unfold start
  split
  · exact ⟨trivial, endsClosed_nil⟩
  split
  · exact ⟨trivial, endsClosed_nil⟩
  split
  · exact ⟨trivial, endsClosed_nil⟩
  split
  · next hquote => exact ⟨⟨[], by rw [hquote]; rfl, .nil⟩, endsClosed_nil⟩
  · next hquote =>
    split
    · exact ⟨trivial, endsClosed_singleton (not_isOpenString_of_head hquote)⟩
    · exact ⟨⟨c, [], rfl, hquote⟩, endsClosed_nil⟩

theorem Sound.step {scan : Scan} (h : scan.Sound) (c : Char) :
    (scan.step c).2.Sound ∧ EndsClosed (scan.step c).1 := by
  have hstart := sound_start c
  cases scan with
  | gap => exact hstart
  | comment =>
    refine ⟨?_, endsClosed_nil⟩
    show Sound (if c = '\n' then .gap else .comment)
    split <;> trivial
  | tilde =>
    rw [Scan.step]
    split
    · exact ⟨trivial, endsClosed_singleton (by decide)⟩
    · exact ⟨hstart.1, (endsClosed_singleton (by decide)).append hstart.2⟩
  | bare read =>
    rcases h with ⟨d, more, hread, hd⟩
    rw [Scan.step]
    split
    · exact ⟨⟨d, more ++ [c], by rw [List.reverse_cons, hread]; rfl, hd⟩, endsClosed_nil⟩
    · have hclosed : EndsClosed [read.reverse] := by
        rw [hread]
        exact endsClosed_singleton (not_isOpenString_of_head hd)
      exact ⟨hstart.1, hclosed.append hstart.2⟩
  | string read =>
    rcases h with ⟨body, hread, hbody⟩
    rw [Scan.step]
    split
    · next hquote =>
      refine ⟨trivial, endsClosed_singleton ?_⟩
      rw [List.reverse_cons, hread, hquote]
      exact hbody.not_isOpenString
    · next hquote =>
      split
      · exact ⟨⟨body, hread, hbody⟩, endsClosed_nil⟩
      · next hslash =>
        exact ⟨⟨body ++ [c], by rw [List.reverse_cons, hread]; rfl, hbody.concat hslash hquote⟩,
          endsClosed_nil⟩
  | escape read =>
    rcases h with ⟨body, hread, hbody⟩
    rw [Scan.step]
    split
    · -- The open string that ends here has the backslash behind it.
      have hslash : EndsClosed [['\\']] := endsClosed_singleton (by decide)
      exact ⟨trivial, by simpa [EndsClosed] using hslash⟩
    · next hc =>
      refine ⟨⟨body ++ ['\\', c], ?_, hbody.concat_pair hc⟩, endsClosed_nil⟩
      rw [List.reverse_cons, List.reverse_cons, hread]
      simp

theorem Sound.run {scan : Scan} (h : scan.Sound) (text : Text) :
    (scan.run text).2.Sound ∧ EndsClosed (scan.run text).1 := by
  induction text generalizing scan with
  | nil => exact ⟨h, endsClosed_nil⟩
  | cons c text ih =>
    have hstep := h.step c
    have hmore := ih hstep.1
    exact ⟨hmore.1, hstep.2.append hmore.2⟩

theorem Sound.endsClosed_finish {scan : Scan} (h : scan.Sound)
    (hstring : ∀ read, scan ≠ .string read) : EndsClosed scan.finish := by
  cases scan with
  | gap => exact endsClosed_nil
  | comment => exact endsClosed_nil
  | tilde => exact endsClosed_singleton (by decide)
  | bare read =>
    rcases h with ⟨c, more, hread, hc⟩
    rw [finish, hread]
    exact endsClosed_singleton (not_isOpenString_of_head hc)
  | string read => exact absurd rfl (hstring read)
  | escape read =>
    have hslash : EndsClosed [['\\']] := endsClosed_singleton (by decide)
    simpa [EndsClosed, finish] using hslash

theorem Sound.isOpenString {read : Text} (h : (Scan.string read).Sound) :
    IsOpenString read.reverse := by
  rcases h with ⟨body, hread, hbody⟩
  rw [hread]
  exact hbody.isOpenString

theorem Sound.not_endsClosed_string {read : Text} (h : (Scan.string read).Sound)
    (tokens : List Token) : ¬ EndsClosed (tokens ++ (Scan.string read).finish) := by
  intro hclosed
  exact hclosed read.reverse (by simp [finish]) h.isOpenString

/-! ## 3. Strings in progress -/

mutual

/-- Whatever follows, the token in progress goes on from what has been read of it. -/
theorem string_tokens_eq_cons (read : Text) : ∀ rest : Text,
    ∃ more later, (Scan.string read).tokens rest = (read.reverse ++ more) :: later
  | [] => ⟨[], [], by rw [List.append_nil]; rfl⟩
  | c :: rest => by
    rw [tokens, step]
    split
    · exact ⟨[c], _, by rw [List.reverse_cons]; rfl⟩
    split
    · exact escape_tokens_eq_cons read rest
    · rcases string_tokens_eq_cons (c :: read) rest with ⟨more, later, htokens⟩
      exact ⟨c :: more, later, by simpa using htokens⟩

theorem escape_tokens_eq_cons (read : Text) : ∀ rest : Text,
    ∃ more later, (Scan.escape read).tokens rest = (read.reverse ++ more) :: later
  | [] => ⟨[], [['\\']], by rw [List.append_nil]; rfl⟩
  | c :: rest => by
    rw [tokens, step]
    split
    · exact ⟨[], _, by rw [List.append_nil]; rfl⟩
    · rcases string_tokens_eq_cons (c :: '\\' :: read) rest with ⟨more, later, htokens⟩
      exact ⟨'\\' :: c :: more, later, by simpa using htokens⟩

end

theorem tilde_tokens_separator {c : Char} (hc : c ∈ separators) (rest : Text) :
    tilde.tokens (c :: rest) = ['~'] :: tokenize rest := by
  have hat : c ≠ '@' := by
    rintro rfl
    exact absurd hc (by decide)
  have hmark : tokenize ('~' :: c :: rest) = ['~'] :: tokenize (c :: rest) := by
    apply tokenize_mark (by decide)
    exact fun _ hhead => hat (Option.some.inj hhead)
  rw [tokenize_separator hc] at hmark
  exact hmark

theorem bare_tokens_separator {c : Char} (hc : c ∈ separators) (read rest : Text) :
    (bare read).tokens (c :: rest) = read.reverse :: tokenize rest := by
  have hend : AtDelimiter (c :: rest) := atDelimiter_cons.mpr (List.mem_append_left _ hc)
  have hname := bare_tokens read (List.forall_mem_nil _) hend
  rw [List.nil_append, List.append_nil, tokenize_separator hc] at hname
  exact hname

/-- A line feed ends whatever is in progress, except a string. -/
theorem tokens_lineFeed {scan : Scan} (h : ∀ read, scan ≠ .string read) (rest : Text) :
    scan.tokens ('\n' :: rest) = scan.finish ++ tokenize rest := by
  cases scan with
  | gap => rfl
  | comment => rfl
  | tilde => exact tilde_tokens_separator (by decide) rest
  | bare read => exact bare_tokens_separator (by decide) read rest
  | string read => exact absurd rfl (h read)
  | escape read => simp [tokens, step, finish, tokenize]

end Scan

/-! ## 4. Whole texts -/

/-- The tokens that are complete at the end of a text. -/
def settled (text : Text) : List Token := (Scan.gap.run text).1

/-- Where the scanner stands at the end of a text. -/
def standing (text : Text) : Scan := (Scan.gap.run text).2

theorem standing_append (text rest : Text) :
    standing (text ++ rest) = ((standing text).run rest).2 := by
  rw [standing, Scan.run_append]
  rfl

theorem tokenize_append (text rest : Text) :
    tokenize (text ++ rest) = settled text ++ (standing text).tokens rest :=
  Scan.gap.tokens_append text rest

theorem tokenize_eq (text : Text) : tokenize text = settled text ++ (standing text).finish :=
  Scan.gap.tokens_eq_run text

theorem sound_standing (text : Text) : (standing text).Sound :=
  (Scan.sound_gap.run text).1

theorem endsClosed_settled (text : Text) : Scan.EndsClosed (settled text) :=
  (Scan.sound_gap.run text).2

/-- The last token is an open string exactly if the scanner stands inside a string, with no
backslash waiting. -/
theorem endsClosed_tokenize_iff (text : Text) :
    Scan.EndsClosed (tokenize text) ↔ ∀ read, standing text ≠ .string read := by
  rw [tokenize_eq]
  constructor
  · intro hclosed read hstanding
    have hsound := sound_standing text
    rw [hstanding] at hsound hclosed
    exact hsound.not_endsClosed_string _ hclosed
  · intro hstring
    exact (endsClosed_settled text).append ((sound_standing text).endsClosed_finish hstring)

end LispForms.Token
