import LispForms.Proofs.Reader.Prefix
import LispForms.Proofs.Token.Split
import LispForms.Proofs.Value.Spelling

/-!
# Open strings — no reading gets past one

A string without its closing quote is no form, opens nothing and closes nothing: in every state the
reading fails with it.  What the string holds, and what comes behind, makes no difference to the
error, except that the metadata mark quotes what it has found instead of a mapping
(`alike_run_append`).
-/

namespace LispForms

namespace Token

variable {token : Token}

theorem IsOpenString.kind_eq (h : IsOpenString token) : token.kind = .atom :=
  kind_eq_atom_iff.mpr (notMem_announcers_of_startsWithQuote h.1)

theorem IsOpenString.ofAtom?_eq_none (h : IsOpenString token) : Value.ofAtom? token = none := by
  rw [Value.ofAtom?, Numeral.read?_eq_none_of_startsWithQuote h.1]
  simp [h.1, h.2]

theorem IsOpenString.ne_closer (h : IsOpenString token) (bracket : Bracket) :
    token ≠ bracket.closer := by
  rintro rfl
  revert h
  cases bracket <;> decide

/-- The first of the tokens is an open string. -/
def BeginsOpen (tokens : List Token) : Prop :=
  ∃ token more, tokens = token :: more ∧ IsOpenString token

end Token

namespace Reader

open Token (IsOpenString BeginsOpen)

variable {levels position : Nat} {state : ReadState} {token : Token}

/-- The results are the same, or both are the error of a metadata mark before an open string, and
only the string that is quoted may differ. -/
inductive Alike : Except ReadError Value → Except ReadError Value → Prop
  | same (result : Except ReadError Value) : Alike result result
  | noMapping (notes : List Text) (position : Nat) {found found' : Token}
      (hfound : IsOpenString found) (hfound' : IsOpenString found') :
      Alike (.error ⟨notes, .noMapping position found⟩) (.error ⟨notes, .noMapping position found'⟩)

theorem Alike.eq_ok {result : Except ReadError Value} {value : Value}
    (h : Alike result (.ok value)) : result = .ok value := by
  cases h
  rfl

theorem Alike.eq_error {result : Except ReadError Value} {error : ReadError}
    (h : Alike result (.error error)) : ∃ error', result = .error error' := by
  cases h <;> exact ⟨_, rfl⟩

/-- Why the reading fails with an open string. -/
def openStringCause (levels position : Nat) (token : Token) : ReadState → Cause
  | .form opened => if levels ≤ opened.length then .tooDeep position else .malformedString position
  | .brace _ => .noMapping position token

theorem exists_bracket_of_closing? {opened : List OpenForm} {closer : Token}
    (h : closing? opened = some closer) : ∃ bracket : Bracket, closer = bracket.closer := by
  cases opened with
  | nil => cases h
  | cons frame opened =>
    cases frame with
    | sequence shape => exact ⟨shape.bracket, (Option.some.inj h).symm⟩
    | mapping => exact ⟨.curly, (Option.some.inj h).symm⟩
    | abbreviation => cases h
    | description => cases h

theorem closing?_ne (h : IsOpenString token) (opened : List OpenForm) :
    closing? opened ≠ some token := by
  intro hclosing
  obtain ⟨bracket, hbracket⟩ := exists_bracket_of_closing? hclosing
  exact h.ne_closer bracket hbracket

theorem run_openString (h : IsOpenString token) (more : List Token) :
    (run levels state position (token :: more)).result
      = .error (state.error (openStringCause levels position token state)) := by
  rw [run_cons]
  cases state with
  | brace opened =>
    have hkind : token.kind ≠ .opensMapping := by simp [h.kind_eq]
    rw [feed, if_neg hkind]
    rfl
  | form opened =>
    -- It closes nothing, so a form begins with it; the level is asked for before the form is read.
    rw [feed_eq_enter (closing?_ne h opened), enter, openStringCause]
    split
    · rfl
    · rw [h.kind_eq, h.ofAtom?_eq_none]
      rfl

theorem alike_run_beginsOpen {tokens tokens' : List Token} (h : BeginsOpen tokens)
    (h' : BeginsOpen tokens') :
    Alike (run levels state position tokens).result (run levels state position tokens').result := by
  rcases h with ⟨token, more, rfl, htoken⟩
  rcases h' with ⟨token', more', rfl, htoken'⟩
  rw [run_openString htoken, run_openString htoken']
  cases state with
  | form => exact .same _
  | brace => exact .noMapping _ _ htoken htoken'

/-- Where two rows of tokens part with an open string in each, the readings come to the same. -/
theorem alike_run_append (first : List Token) {tokens tokens' : List Token}
    (h : BeginsOpen tokens) (h' : BeginsOpen tokens') :
    Alike (run levels state position (first ++ tokens)).result
      (run levels state position (first ++ tokens')).result := by
  cases hafter : stateAfter levels state position first with
  | none =>
    -- Both readings have ended before they get to the string.
    rw [run_append_of_none hafter, run_append_of_none hafter]
    exact .same _
  | some after =>
    rw [run_append_of_some hafter, run_append_of_some hafter]
    exact alike_run_beginsOpen h h'

end Reader

end LispForms
