import LispForms.Proofs.Reader.Blame
import LispForms.Proofs.Reader.Descent
import LispForms.Proofs.Session.Complete

/-!
# Severed — strings that end before a backslash

A string without its closing quote takes in all that follows, except where a backslash has no
character of its line to hide: there the scanner ends the string and makes the backslash a token of
its own.  A text that holds such a string can end in another token and count as complete.  Where no
string is severed, an open string is the last token, and a complete text has none.

Main statement: `strings_close_iff_not_severed`.
-/

namespace LispForms

/-! ## 1. Where the scanner ends an open string -/

namespace Token

variable {text : Text} {token : Token}

namespace Scan

variable {scan : Scan} {read : Text} {c : Char}

theorem not_isOpenString_of_mem_start (h : token ∈ (start c).1) : ¬ IsOpenString token := by
  unfold start at h
  split at h
  · cases h
  split at h
  · cases h
  split at h
  · cases h
  split at h
  · cases h
  · next hquote =>
    split at h
    · rw [List.mem_singleton.mp h]
      exact not_isOpenString_of_head hquote
    · cases h

/-- No other step gives out an open string than the one from a backslash to a line feed. -/
theorem Sound.eq_escape_of_mem_step (h : scan.Sound) (hmem : token ∈ (scan.step c).1)
    (hopen : IsOpenString token) : c = '\n' ∧ ∃ read, scan = .escape read := by
  cases scan with
  | gap => exact absurd hopen (not_isOpenString_of_mem_start hmem)
  | comment => cases hmem
  | tilde =>
    rw [Scan.step] at hmem
    split at hmem
    · rw [List.mem_singleton.mp hmem] at hopen
      exact absurd hopen (by decide)
    · rcases List.mem_cons.mp hmem with rfl | hmem
      · exact absurd hopen (by decide)
      · exact absurd hopen (not_isOpenString_of_mem_start hmem)
  | bare read =>
    rcases h with ⟨d, more, hread, hd⟩
    rw [Scan.step] at hmem
    split at hmem
    · cases hmem
    · rcases List.mem_cons.mp hmem with rfl | hmem
      · rw [hread] at hopen
        exact absurd hopen (not_isOpenString_of_head hd)
      · exact absurd hopen (not_isOpenString_of_mem_start hmem)
  | string read =>
    rcases h with ⟨body, hread, hbody⟩
    rw [Scan.step] at hmem
    split at hmem
    · next hquote =>
      rw [List.mem_singleton.mp hmem, List.reverse_cons, hread, hquote] at hopen
      exact absurd hopen hbody.not_isOpenString
    · split at hmem <;> cases hmem
  | escape read =>
    rw [Scan.step] at hmem
    split at hmem
    · next hc => exact ⟨hc, read, rfl⟩
    · cases hmem

/-- An open string that a run gives out has been ended by a line feed behind a backslash. -/
theorem Sound.exists_escape_of_mem_run (h : scan.Sound) (hmem : token ∈ (scan.run text).1)
    (hopen : IsOpenString token) :
    ∃ front more read, text = front ++ '\n' :: more ∧ (scan.run front).2 = .escape read := by
  induction text generalizing scan with
  | nil => cases hmem
  | cons c text ih =>
    -- The string is given out by the first step or by the run after it.
    rcases List.mem_append.mp hmem with hstep | hlater
    · rcases h.eq_escape_of_mem_step hstep hopen with ⟨rfl, read, rfl⟩
      exact ⟨[], text, read, rfl, rfl⟩
    · rcases ih (h.step c).1 hlater with ⟨front, more, read, htext, hrun⟩
      exact ⟨c :: front, more, read, by rw [htext]; rfl, hrun⟩

theorem start_ne_escape (c : Char) (read : Text) : (start c).2 ≠ .escape read := by
  unfold start
  repeat' split
  all_goals simp

theorem eq_string_of_step_eq_escape (h : (scan.step c).2 = .escape read) :
    scan = .string read ∧ c = '\\' := by
  cases scan with
  | gap => exact absurd h (start_ne_escape c read)
  | comment =>
    have hcomment : (if c = '\n' then Scan.gap else .comment) = .escape read := h
    split at hcomment <;> cases hcomment
  | tilde =>
    rw [step] at h
    split at h
    · cases h
    · exact absurd h (start_ne_escape c read)
  | bare =>
    rw [step] at h
    split at h
    · cases h
    · exact absurd h (start_ne_escape c read)
  | string =>
    rw [step] at h
    split at h
    · cases h
    · split at h
      · next hslash =>
        cases h
        exact ⟨rfl, hslash⟩
      · cases h
  | escape =>
    rw [step] at h
    split at h <;> cases h

/-- A backslash at the end of its line ends the string, and is a token by itself. -/
theorem string_tokens_slash {more : Text} (hmore : AtLineEnd more) :
    (Scan.string read).tokens ('\\' :: more) = read.reverse :: ['\\'] :: tokenize more := by
  rcases hmore with rfl | ⟨more, rfl⟩
  · rfl
  · rw [tokenize_separator (by decide)]
    rfl

end Scan

theorem exists_slash_of_standing {read : Text} (h : standing text = .escape read) :
    ∃ before, text = before ++ ['\\'] ∧ standing before = .string read := by
  rcases List.eq_nil_or_concat text with rfl | ⟨before, c, rfl⟩
  · cases h
  · rw [List.concat_eq_append, standing_append] at h
    rcases Scan.eq_string_of_step_eq_escape h with ⟨hstanding, rfl⟩
    exact ⟨before, List.concat_eq_append, hstanding⟩

theorem mem_dropLast_tokenize (h : token ∈ (tokenize text).dropLast) :
    token ∈ settled text ∨ ∃ read, standing text = .escape read := by
  rw [tokenize_eq] at h
  cases hstanding : standing text with
  | gap | comment =>
    rw [hstanding, Scan.finish, List.append_nil] at h
    exact .inl (List.dropLast_subset _ h)
  | tilde | bare | string =>
    rw [hstanding, Scan.finish, List.dropLast_concat] at h
    exact .inl h
  -- Only here does the end of the text complete more than one token.
  | escape read => exact .inr ⟨read, rfl⟩

end Token

/-! ## 2. Where a reading finds an open string -/

namespace Cursor

open Token (IsOpenString)

variable {tokens : List Token} {cursor after : Cursor} {stage : Stage} {note : Text}
  {build : Value → Value} {result : Except ReadError Value}

/-- Where the error blames a malformed string there stands an open one. -/
def BlamesOpenString (tokens : List Token) (error : ReadError) : Prop :=
  ∀ place, error.cause = .malformedString place →
    ∃ token, tokens[place]? = some token ∧ IsOpenString token

theorem getElem?_of_peek {token : Token} (h : cursor.peek = .ok token) :
    cursor.tokens[cursor.position]? = some token := by
  unfold peek at h
  split at h
  · next htoken => rw [htoken, Except.ok.inj h]
  · cases h

theorem blamesOpenString_marked
    (h : ∀ error, result = .error error → BlamesOpenString tokens error) :
    ∀ error, marked note build result = .error error → BlamesOpenString tokens error := by
  intro error herror
  cases result with
  | ok value => cases herror
  | error inner =>
    cases herror
    exact h inner rfl

theorem Descent.blamesOpenString (h : Descent stage cursor result after) :
    ∀ error, result = .error error → BlamesOpenString cursor.tokens error := by
  induction h with
  | tooDeep h =>
    rcases eq_tooDeep_of_descend h with ⟨-, rfl⟩
    rintro _ ⟨⟩
    exact nofun
  | level h _ ih =>
    rcases eq_of_descend h with ⟨-, rfl⟩
    exact ih
  | noToken h =>
    rcases eq_noToken_of_peek h with ⟨-, rfl⟩
    rintro _ ⟨⟩
    exact nofun
  | sequence _ _ _ ih => exact ih
  | mapping _ _ _ ih => exact ih
  | abbreviation _ _ _ ih => exact blamesOpenString_marked ih
  | noMetadata _ _ _ ih =>
    have hbraces := ih _ rfl
    rintro _ ⟨⟩
    exact hbraces
  | description _ _ hbraces _ _ ih =>
    rw [hbraces.eq_tokens_and_depth.1] at ih
    exact blamesOpenString_marked ih
  | atom => exact nofun
  | malformedString h _ hatom =>
    rintro _ ⟨⟩ place hcause
    cases hcause
    exact ⟨_, getElem?_of_peek (eq_advance_of_next h).1,
      Reader.isOpenString_of_ofAtom?_eq_none hatom⟩
  | noBrace h =>
    rcases eq_noToken_of_peek (eq_self_of_next h).1 with ⟨-, rfl⟩
    rintro _ ⟨⟩
    exact nofun
  | braces h _ _ ih =>
    rcases eq_advance_of_next h with ⟨-, rfl⟩
    exact ih
  | closedSequence => exact nofun
  | closedMapping => exact nofun
  | failed _ _ _ _ ih => exact ih
  | next _ _ _ hform _ _ ih =>
    rw [hform.eq_tokens_and_depth.1] at ih
    exact ih
  -- The other rules name another cause.
  | _ =>
    rintro _ ⟨⟩
    exact nofun

/-- A reading blames a malformed string only where there is an open one. -/
theorem exists_isOpenString_of_readForm {error : ReadError} (h : cursor.readForm.1 = .error error)
    {place : Nat} (hcause : error.cause = .malformedString place) :
    ∃ token ∈ cursor.tokens, IsOpenString token := by
  have hdescent : Descent .form cursor (.error error) cursor.readForm.2 :=
    descent_iff_readForm.mpr (by rw [← h])
  rcases hdescent.blamesOpenString error rfl place hcause with ⟨token, htoken, hopen⟩
  exact ⟨token, List.mem_of_getElem? htoken, hopen⟩

/-- A reading that begins with an open string blames it. -/
theorem readForm_of_isOpenString {first more : List Token} {token : Token}
    (hopen : IsOpenString token) :
    (Cursor.mk (first ++ token :: more) first.length 0).readForm.1
      = .error ⟨[], .malformedString first.length⟩ := by
  show (Reader.run _ _ _ ((first ++ token :: more).drop first.length)).result = _
  rw [List.drop_left, Reader.run_openString hopen]
  rfl

/-- Some reading from among the tokens blames a string exactly if there is an open string. -/
theorem forall_readForm_iff (tokens : List Token) :
    (∀ cursor : Cursor, cursor.tokens = tokens → ∀ error, cursor.readForm.1 = .error error →
      ∀ place, error.cause ≠ .malformedString place) ↔
    ∀ token ∈ tokens, ¬ IsOpenString token := by
  constructor
  · intro h token htoken hopen
    rcases List.append_of_mem htoken with ⟨first, more, rfl⟩
    exact h _ rfl _ (readForm_of_isOpenString hopen) _ rfl
  · rintro h cursor rfl error herror place hcause
    rcases exists_isOpenString_of_readForm herror hcause with ⟨token, htoken, hopen⟩
    exact h token htoken hopen

end Cursor

/-! ## 3. Severed strings -/

namespace Session

open Text (isStringLiteral startsWithQuote)
open Token (AtLineEnd IsOpenString Scan settled standing tokenize)

variable {text : Text} {token : Token}

/-- Somewhere a backslash at the end of a line, or of the text, stands inside a string. -/
def Severed (text : Text) : Prop :=
  ∃ before more, text = before ++ '\\' :: more ∧ AtLineEnd more ∧ isComplete before = false

theorem severed_of_standing {before more read : Text} (hmore : AtLineEnd more)
    (h : standing before = .string read) : Severed (before ++ '\\' :: more) := by
  refine ⟨before, more, rfl, hmore, ?_⟩
  rw [← Bool.not_eq_true, isComplete_iff_standing]
  exact fun hstring => hstring read h

theorem severed_of_mem_settled (hmem : token ∈ settled text) (hopen : IsOpenString token) :
    Severed text := by
  rcases Scan.sound_gap.exists_escape_of_mem_run hmem hopen with ⟨front, more, read, rfl, hfront⟩
  rcases Token.exists_slash_of_standing hfront with ⟨before, rfl, hbefore⟩
  rw [List.append_assoc]
  exact severed_of_standing (.inr ⟨more, rfl⟩) hbefore

theorem severed_of_mem_dropLast (hmem : token ∈ (tokenize text).dropLast)
    (hopen : IsOpenString token) : Severed text := by
  rcases Token.mem_dropLast_tokenize hmem with hsettled | ⟨read, hstanding⟩
  · exact severed_of_mem_settled hsettled hopen
  · rcases Token.exists_slash_of_standing hstanding with ⟨before, rfl, hbefore⟩
    exact severed_of_standing (.inl rfl) hbefore

/-- The string that is severed is an open one, and the backslash comes behind it. -/
theorem Severed.exists_mem_dropLast (h : Severed text) :
    ∃ token ∈ (tokenize text).dropLast, IsOpenString token := by
  rcases h with ⟨before, more, rfl, hmore, hbefore⟩
  rcases standing_of_isComplete_eq_false hbefore with ⟨read, hread⟩
  have hsound := Token.sound_standing before
  rw [hread] at hsound
  refine ⟨read.reverse, ?_, hsound.isOpenString⟩
  rw [Token.tokenize_append, hread, Scan.string_tokens_slash hmore]
  rw [List.dropLast_append_cons, List.dropLast_cons_cons]
  exact List.mem_append_right _ List.mem_cons_self

theorem forall_dropLast_iff_not_severed (text : Text) :
    (∀ token ∈ (tokenize text).dropLast, ¬ IsOpenString token) ↔ ¬ Severed text := by
  constructor
  · intro h hsevered
    rcases hsevered.exists_mem_dropLast with ⟨token, hmem, hopen⟩
    exact h token hmem hopen
  · intro h token hmem hopen
    exact h (severed_of_mem_dropLast hmem hopen)

/-- Where the last token is no open string, only the others have to be looked at. -/
theorem forall_iff_forall_dropLast {tokens : List Token} (h : Scan.EndsClosed tokens) :
    (∀ token ∈ tokens, ¬ IsOpenString token) ↔
      ∀ token ∈ tokens.dropLast, ¬ IsOpenString token := by
  rcases List.eq_nil_or_concat tokens with rfl | ⟨first, last, rfl⟩
  · exact Iff.rfl
  · rw [List.concat_eq_append] at h ⊢
    have hlast : ¬ IsOpenString last := h last (by simp)
    rw [List.dropLast_concat, List.forall_mem_append, List.forall_mem_singleton]
    exact and_iff_left hlast

theorem not_isOpenString_iff (token : Token) :
    ¬ IsOpenString token ↔ (startsWithQuote token = true → isStringLiteral token = true) := by
  cases hliteral : isStringLiteral token <;> simp [IsOpenString, hliteral]

/-- A string without its closing quote can only be the last token, and no complete text has one
among its tokens or blames one when its forms are read, exactly if no string is severed. -/
theorem strings_close_iff_not_severed (text : Text) :
    ((∀ token ∈ (tokenize text).dropLast, ¬ IsOpenString token) ↔ ¬ Severed text) ∧
      (isComplete text = true →
        ((∀ token ∈ tokenize text, startsWithQuote token = true → isStringLiteral token = true) ↔
          ¬ Severed text) ∧
        ((∀ cursor : Cursor, cursor.tokens = tokenize text →
            ∀ error, cursor.readForm.1 = .error error →
              ∀ place, error.cause ≠ .malformedString place) ↔ ¬ Severed text)) := by
  have hothers := forall_dropLast_iff_not_severed text
  refine ⟨hothers, fun hcomplete => ?_⟩
  have hall := (forall_iff_forall_dropLast ((isComplete_iff_endsClosed text).mp hcomplete)).trans
    hothers
  constructor
  · simpa only [not_isOpenString_iff] using hall
  · exact (Cursor.forall_readForm_iff _).trans hall

/-- The first string of `"a\\" "b⏎c"` ends in a pair, and the second goes on in another line; both
are closed, and no reading of the text blames a string. -/
theorem strings_close_iff_not_severed_two_lines :
    isComplete "\"a\\\\\" \"b\nc\"".toList = true ∧ ¬ Severed "\"a\\\\\" \"b\nc\"".toList ∧
      ∀ error, (Cursor.ofText "\"a\\\\\" \"b\nc\"".toList).readForm.1 = .error error →
        ∀ place, error.cause ≠ .malformedString place := by
  have hcomplete : isComplete "\"a\\\\\" \"b\nc\"".toList = true := by rfl
  rcases (strings_close_iff_not_severed "\"a\\\\\" \"b\nc\"".toList).2 hcomplete with
    ⟨hstrings, hreadings⟩
  have hclosed : ¬ Severed "\"a\\\\\" \"b\nc\"".toList := hstrings.mp (by decide)
  exact ⟨hcomplete, hclosed, hreadings.mpr hclosed _ rfl⟩

/-- The backslash at the end of `"a\` severs the string: the text is complete, though its first
token is an open string, and the first reading blames it. -/
theorem complete_with_severed_string :
    tokenize "\"a\\".toList = ["\"a".toList, ['\\']] ∧ IsOpenString "\"a".toList ∧
      isComplete "\"a\\".toList = true ∧
      (Cursor.ofText "\"a\\".toList).readForm.1 = .error ⟨[], .malformedString 0⟩ := by
  exact ⟨by rfl, by decide, by rfl, by rfl⟩

end Session

end LispForms
