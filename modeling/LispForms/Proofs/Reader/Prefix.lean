import LispForms.Proofs.Reader.Acceptance

/-!
# Prefix — readings of tokens that are cut off or go on

A reading takes its tokens one by one, so on some tokens and then more it either has ended with the
first ones or goes on from where they leave it (`stateAfter`).  A reading that has not failed for
want of a token is therefore the same whatever comes behind, and one that has been cut off wants a
token.
-/

namespace LispForms

/-- The position at which the cause says that a token is wanted and there is none. -/
def Cause.missing? : Cause → Option Nat
  | .noToken position => some position
  | .unclosed _ _ position => some position
  | .keyWithoutValue _ => none
  | .noMapping _ _ => none
  | .tooDeep _ => none
  | .malformedString _ => none
  | .stated _ => none

def Progress.error? : Progress → Option ReadError
  | .more _ => none
  | .done _ => none
  | .refuse error => some error
  | .reject error => some error

namespace Reader

variable {levels position next : Nat} {opened : List OpenForm} {state after : ReadState}
  {token : Token} {tokens : List Token} {value : Value} {error : ReadError}

/-- Where the reading stands after the tokens, unless it has ended with one of them. -/
def stateAfter (levels : Nat) : ReadState → Nat → List Token → Option ReadState
  | state, _, [] => some state
  | state, position, token :: rest =>
    match feed levels position token state with
    | .more next => stateAfter levels next (position + 1) rest
    | .done _ => none
    | .refuse _ => none
    | .reject _ => none

/-! ## 1. One token -/

theorem error?_finish (value : Value) (opened : List OpenForm) :
    (finish value opened).error? = none := by
  induction opened generalizing value with
  | nil => rfl
  | cons frame opened ih =>
    cases frame with
    | sequence => rfl
    | mapping _ _ _ key => cases key <;> rfl
    | abbreviation => exact ih _
    | description => exact ih _

theorem missing?_enter (h : (enter levels position token opened).error? = some error) :
    error.cause.missing? = none := by
  unfold enter at h
  split at h
  · cases h
    rfl
  · cases hkind : token.kind with
    | opens => simp [hkind, Progress.error?] at h
    | opensMapping => simp [hkind, Progress.error?] at h
    | abbreviates => simp [hkind, Progress.error?] at h
    | describes => simp [hkind, Progress.error?] at h
    | atom =>
      cases hatom : Value.ofAtom? token with
      | none =>
        simp only [hkind, hatom] at h
        cases h
        rfl
      | some value => simp [hkind, hatom, error?_finish] at h

theorem missing?_closeMapping {purpose : Purpose} {opening : Nat} {entries : Mapping}
    {key : Option Value}
    (h : (closeMapping purpose opening entries key opened).error? = some error) :
    error.cause.missing? = none := by
  cases key with
  | some key =>
    cases h
    rfl
  | none =>
    cases purpose with
    | literal => simp [closeMapping, error?_finish] at h
    | metadata => cases h

/-- No token that is there makes a reading want one. -/
theorem missing?_feed (h : (feed levels position token state).error? = some error) :
    error.cause.missing? = none := by
  cases state with
  | brace opened =>
    rw [feed] at h
    split at h <;> cases h
    rfl
  | form opened =>
    cases opened with
    | nil => exact missing?_enter h
    | cons frame opened =>
      cases frame with
      | sequence =>
        rw [feed] at h
        split at h
        · rw [error?_finish] at h
          cases h
        · exact missing?_enter h
      | mapping =>
        rw [feed] at h
        split at h
        · exact missing?_closeMapping h
        · exact missing?_enter h
      | abbreviation => exact missing?_enter h
      | description => exact missing?_enter h

/-- Where a form has to come, its level is asked for before its token. -/
theorem outOfTokens_of_none (hclosing : closing? opened = none) :
    outOfTokens levels position (.form opened) =
      if levels ≤ opened.length then (ReadState.form opened).error (.tooDeep position)
      else (ReadState.form opened).error (.noToken position) := by
  cases opened with
  | nil => rfl
  | cons frame opened =>
    cases frame with
    | sequence => cases hclosing
    | mapping => cases hclosing
    | abbreviation => rfl
    | description => rfl

theorem outOfTokens_of_tooDeep (hlevels : levels ≤ opened.length)
    (hclosing : closing? opened = none) :
    outOfTokens levels position (.form opened)
      = (ReadState.form opened).error (.tooDeep position) := by
  rw [outOfTokens_of_none hclosing, if_pos hlevels]

theorem missing?_outOfTokens_of_some {closer : Token} (hclosing : closing? opened = some closer) :
    (outOfTokens levels position (.form opened)).cause.missing? = some position := by
  cases opened with
  | nil => cases hclosing
  | cons frame opened =>
    cases frame with
    | sequence => rfl
    | mapping => rfl
    | abbreviation => cases hclosing
    | description => cases hclosing

/-- Where no level is left for the form that has to come, the reading fails at once, whether there
is a token or not. -/
theorem run_of_tooDeep (hlevels : levels ≤ opened.length) (hclosing : closing? opened = none)
    (tokens : List Token) :
    run levels (.form opened) position tokens
      = ⟨.error ((ReadState.form opened).error (.tooDeep position)), position⟩ := by
  cases tokens with
  | nil => rw [run, outOfTokens_of_tooDeep hlevels hclosing]
  | cons token rest =>
    have hne : closing? opened ≠ some token := by simp [hclosing]
    rw [run_cons, feed_eq_enter hne, enter, if_pos hlevels]
    rfl

/-- At the end of the tokens a reading wants the next one, unless the form that has to come is too
deep. -/
theorem missing?_outOfTokens (levels position : Nat) (state : ReadState) :
    (outOfTokens levels position state).cause.missing? = some position ∨
      ∃ opened, state = .form opened ∧ levels ≤ opened.length ∧ closing? opened = none := by
  cases state with
  | brace => exact .inl rfl
  | form opened =>
    cases hclosing : closing? opened with
    | some closer => exact .inl (missing?_outOfTokens_of_some hclosing)
    | none =>
      by_cases hlevels : levels ≤ opened.length
      · exact .inr ⟨opened, rfl, hlevels, hclosing⟩
      · rw [outOfTokens_of_none hclosing, if_neg hlevels]
        exact .inl rfl

/-! ## 2. Some tokens and then more -/

theorem run_append_of_some (h : stateAfter levels state position tokens = some after)
    (rest : List Token) :
    run levels state position (tokens ++ rest)
      = run levels after (position + tokens.length) rest := by
  induction tokens generalizing state position with
  | nil =>
    cases h
    rfl
  | cons token tokens ih =>
    rw [stateAfter] at h
    rw [List.cons_append, run_cons]
    cases hfeed : feed levels position token state with
    | more next =>
      rw [hfeed] at h
      rw [resume, ih h, List.length_cons]
      congr 1
      omega
    | done => rw [hfeed] at h; cases h
    | refuse => rw [hfeed] at h; cases h
    | reject => rw [hfeed] at h; cases h

theorem run_append_of_none (h : stateAfter levels state position tokens = none)
    (rest : List Token) :
    run levels state position (tokens ++ rest) = run levels state position tokens := by
  induction tokens generalizing state position with
  | nil => cases h
  | cons token tokens ih =>
    rw [stateAfter] at h
    rw [List.cons_append, run_cons, run_cons]
    cases hfeed : feed levels position token state with
    | more next =>
      rw [hfeed] at h
      exact ih h
    | done => rfl
    | refuse => rfl
    | reject => rfl

/-- A reading that has ended with one of the tokens stands no further than behind them, and does not
want another. -/
theorem run_of_none (h : stateAfter levels state position tokens = none) :
    (run levels state position tokens).position ≤ position + tokens.length ∧
      ∀ error, (run levels state position tokens).result = .error error →
        error.cause.missing? = none := by
  induction tokens generalizing state position with
  | nil => cases h
  | cons token tokens ih =>
    rw [stateAfter] at h
    rw [run_cons, List.length_cons]
    cases hfeed : feed levels position token state with
    | more next =>
      rw [hfeed] at h
      have hmore := ih h
      refine ⟨?_, hmore.2⟩
      have hposition := hmore.1
      rw [resume]
      omega
    | done value =>
      refine ⟨?_, fun error herror => ?_⟩
      · show position + 1 ≤ _
        omega
      · cases herror
    | refuse error =>
      have herror : (feed levels position token state).error? = some error := by rw [hfeed]; rfl
      refine ⟨?_, fun e he => ?_⟩
      · show position + 1 - 1 ≤ _
        omega
      · cases he
        exact missing?_feed herror
    | reject error =>
      have herror : (feed levels position token state).error? = some error := by rw [hfeed]; rfl
      refine ⟨?_, fun e he => ?_⟩
      · show position + 1 ≤ _
        omega
      · cases he
        exact missing?_feed herror

theorem run_of_some (h : stateAfter levels state position tokens = some after) :
    run levels state position tokens
      = ⟨.error (outOfTokens levels (position + tokens.length) after),
          position + tokens.length⟩ := by
  have hrun := run_append_of_some h []
  rwa [List.append_nil] at hrun

/-! ## 3. Whole readings -/

theorem position_le_of_run (h : run levels state position tokens = ⟨.ok value, next⟩) :
    next ≤ position + tokens.length := by
  cases hafter : stateAfter levels state position tokens with
  | none =>
    have hle := (run_of_none hafter).1
    rwa [h] at hle
  | some after =>
    rw [run_of_some hafter] at h
    cases h

/-- A reading that wants a token stands at the end of the tokens, and wants the one there. -/
theorem position_of_missing? {wanted : Nat}
    (h : run levels state position tokens = ⟨.error error, next⟩)
    (hmissing : error.cause.missing? = some wanted) :
    wanted = position + tokens.length ∧ next = position + tokens.length := by
  cases hafter : stateAfter levels state position tokens with
  | none =>
    have hnone := (run_of_none hafter).2 error (by rw [h])
    rw [hnone] at hmissing
    cases hmissing
  | some after =>
    rw [run_of_some hafter] at h
    cases h
    refine ⟨?_, rfl⟩
    rcases missing?_outOfTokens levels (position + tokens.length) after with
      hend | ⟨opened, rfl, hlevels, hclosing⟩
    · exact Option.some.inj (hmissing.symm.trans hend)
    · rw [outOfTokens_of_tooDeep hlevels hclosing] at hmissing
      cases hmissing

/-- An error that is not for want of a token stands, whatever comes behind the tokens. -/
theorem run_append_of_missing? (h : run levels state position tokens = ⟨.error error, next⟩)
    (hmissing : error.cause.missing? = none) (rest : List Token) :
    run levels state position (tokens ++ rest) = ⟨.error error, next⟩ := by
  cases hafter : stateAfter levels state position tokens with
  | none => rw [run_append_of_none hafter, h]
  | some after =>
    rw [run_append_of_some hafter]
    have hstop := run_of_some hafter
    rw [h] at hstop
    cases hstop
    rcases missing?_outOfTokens levels (position + tokens.length) after with
      hend | ⟨opened, rfl, hlevels, hclosing⟩
    · rw [hend] at hmissing
      cases hmissing
    · rw [run_of_tooDeep hlevels hclosing, outOfTokens_of_tooDeep hlevels hclosing]

/-- Any part of the tokens of a form leaves the reading in want of the next one. -/
theorem run_take_of_ok (h : run levels state position tokens = ⟨.ok value, next⟩) {count : Nat}
    (hcount : position + count < next) :
    ∃ error, run levels state position (tokens.take count) = ⟨.error error, position + count⟩ ∧
      error.cause.missing? = some (position + count) := by
  have hlength : (tokens.take count).length = count := by
    have hnext := position_le_of_run h
    rw [List.length_take]
    omega
  have hrun := h
  rw [← List.take_append_drop count tokens] at hrun
  cases hafter : stateAfter levels state position (tokens.take count) with
  | none =>
    -- The form would have ended among the first tokens.
    have hle := (run_of_none hafter).1
    rw [run_append_of_none hafter] at hrun
    rw [hrun, hlength] at hle
    exact absurd hle (Nat.not_le.mpr hcount)
  | some after =>
    rw [run_append_of_some hafter, hlength] at hrun
    have hstop := run_of_some hafter
    rw [hlength] at hstop
    refine ⟨_, hstop, ?_⟩
    rcases missing?_outOfTokens levels (position + count) after with
      hend | ⟨opened, rfl, hlevels, hclosing⟩
    · exact hend
    · rw [run_of_tooDeep hlevels hclosing] at hrun
      cases hrun

/-- A form is read wherever its tokens stand, whatever comes before and behind them. -/
theorem run_of_agree (h : run levels (.form []) position tokens = ⟨.ok value, next⟩)
    {others : List Token} (hagree : ∀ i < next - position, others[i]? = tokens[i]?)
    (start : Nat) :
    run levels (.form []) start others = ⟨.ok value, start + (next - position)⟩ := by
  rcases run_eq_ok_iff.mp h with ⟨segment, rest, rfl, rfl, hderives⟩
  rw [Nat.add_sub_cancel_left] at hagree ⊢
  have htake : others.take segment.length = segment := by
    apply List.ext_getElem?
    intro i
    by_cases hi : i < segment.length
    · rw [List.getElem?_take_of_lt hi, hagree i hi, List.getElem?_append_left hi]
    · rw [List.getElem?_eq_none (by rw [List.length_take]; omega),
        List.getElem?_eq_none (Nat.not_lt.mp hi)]
  refine run_eq_ok_iff.mpr ⟨segment, others.drop segment.length, ?_, rfl, hderives⟩
  exact (List.take_append_drop segment.length others).symm.trans (congrArg (· ++ _) htake)

end Reader

namespace Cursor

variable {cursor : Cursor} {value : Value} {error : ReadError} {next : Nat}

theorem readForm_eq_iff {result : Except ReadError Value} :
    cursor.readForm = (result, { cursor with position := next }) ↔
      Reader.run (maxDepth - cursor.depth) (.form []) cursor.position
        (cursor.tokens.drop cursor.position) = ⟨result, next⟩ := by
  rw [readForm]
  generalize Reader.run _ _ _ _ = reading
  rcases reading with ⟨outcome, position⟩
  constructor
  · intro h
    cases h
    rfl
  · intro h
    cases h
    rfl

/-! ## 4. The form at a cursor -/

theorem position_lt_of_readForm
    (h : cursor.readForm = (.ok value, { cursor with position := next })) :
    cursor.position < next ∧ next ≤ cursor.tokens.length := by
  have hrun := readForm_eq_iff.mp h
  rcases Reader.run_eq_ok_iff.mp hrun with ⟨segment, rest, htokens, rfl, hderives⟩
  have hpos := List.length_pos_iff.mpr hderives.ne_nil
  have hlength := congrArg List.length htokens
  rw [List.length_drop, List.length_append] at hlength
  omega

theorem readForm_of_agree
    (h : cursor.readForm = (.ok value, { cursor with position := next })) {tokens : List Token}
    {position : Nat} (hagree : ∀ i < next - cursor.position,
      tokens[position + i]? = cursor.tokens[cursor.position + i]?) :
    (Cursor.mk tokens position cursor.depth).readForm
      = (.ok value, ⟨tokens, position + (next - cursor.position), cursor.depth⟩) := by
  refine readForm_eq_iff.mpr (Reader.run_of_agree (readForm_eq_iff.mp h) ?_ position)
  intro i hi
  rw [List.getElem?_drop, List.getElem?_drop]
  exact hagree i hi

theorem readForm_take
    (h : cursor.readForm = (.ok value, { cursor with position := next })) {cut : Nat}
    (hcut : cursor.position ≤ cut) (hnext : cut < next) :
    ∃ error, (Cursor.mk (cursor.tokens.take cut) cursor.position cursor.depth).readForm
        = (.error error, ⟨cursor.tokens.take cut, cut, cursor.depth⟩) ∧
      error.cause.missing? = some cut := by
  have hcount : cursor.position + (cut - cursor.position) = cut := Nat.add_sub_cancel' hcut
  rcases Reader.run_take_of_ok (readForm_eq_iff.mp h) (hcount.symm ▸ hnext) with
    ⟨error, hrun, hmissing⟩
  rw [hcount] at hrun hmissing
  refine ⟨error, readForm_eq_iff.mpr ?_, hmissing⟩
  show Reader.run _ _ _ ((cursor.tokens.take cut).drop cursor.position) = _
  rw [List.drop_take, hrun]

theorem missing?_of_readForm
    (h : cursor.readForm = (.error error, { cursor with position := next })) {wanted : Nat}
    (hmissing : error.cause.missing? = some wanted) :
    wanted = next ∧ cursor.tokens.length ≤ wanted := by
  have hend := Reader.position_of_missing? (readForm_eq_iff.mp h) hmissing
  rw [List.length_drop] at hend
  omega

theorem readForm_append
    (h : cursor.readForm = (.error error, { cursor with position := next }))
    (hmissing : error.cause.missing? = none) (more : List Token) :
    (Cursor.mk (cursor.tokens ++ more) cursor.position cursor.depth).readForm
      = (.error error, ⟨cursor.tokens ++ more, next, cursor.depth⟩) := by
  refine readForm_eq_iff.mpr ?_
  show Reader.run _ _ _ ((cursor.tokens ++ more).drop cursor.position) = _
  rw [List.drop_append]
  exact Reader.run_append_of_missing? (readForm_eq_iff.mp h) hmissing _

/-- A form is read from its own tokens.  They give the same value in every other row, also at
another place in it, and with any of them cut off the reading wants the first that is not there.  An
error that is not for want of a token stays the same when more tokens follow. -/
theorem readForm_own_tokens :
    (∀ (cursor : Cursor) (value : Value) (next : Nat),
      cursor.readForm = (.ok value, { cursor with position := next }) →
        (cursor.position < next ∧ next ≤ cursor.tokens.length) ∧
        (∀ tokens : List Token,
          (∀ i, cursor.position ≤ i → i < next → tokens[i]? = cursor.tokens[i]?) →
            (Cursor.mk tokens cursor.position cursor.depth).readForm
              = (.ok value, ⟨tokens, next, cursor.depth⟩)) ∧
        (∀ (tokens : List Token) (position : Nat),
          (∀ i < next - cursor.position,
            tokens[position + i]? = cursor.tokens[cursor.position + i]?) →
            (Cursor.mk tokens position cursor.depth).readForm
              = (.ok value, ⟨tokens, position + (next - cursor.position), cursor.depth⟩)) ∧
        ∀ cut, cursor.position ≤ cut → cut < next →
          ∃ error, (Cursor.mk (cursor.tokens.take cut) cursor.position cursor.depth).readForm
              = (.error error, ⟨cursor.tokens.take cut, cut, cursor.depth⟩) ∧
            error.cause.missing? = some cut) ∧
    ∀ (cursor : Cursor) (error : ReadError) (next : Nat),
      cursor.readForm = (.error error, { cursor with position := next }) →
        (∀ wanted, error.cause.missing? = some wanted →
          wanted = next ∧ cursor.tokens.length ≤ wanted) ∧
        (error.cause.missing? = none → ∀ more : List Token,
          (Cursor.mk (cursor.tokens ++ more) cursor.position cursor.depth).readForm
            = (.error error, ⟨cursor.tokens ++ more, next, cursor.depth⟩)) := by
  refine ⟨fun cursor value next h => ⟨position_lt_of_readForm h, fun tokens hagree => ?_,
    fun tokens position hagree => readForm_of_agree h hagree,
    fun cut hcut hnext => readForm_take h hcut hnext⟩,
    fun cursor error next h => ⟨fun wanted => missing?_of_readForm h, readForm_append h⟩⟩
  -- The same place in another row is one of the places where the tokens may stand.
  have hlt := (position_lt_of_readForm h).1
  have hsame : ∀ i < next - cursor.position,
      tokens[cursor.position + i]? = cursor.tokens[cursor.position + i]? := fun i hi =>
    hagree (cursor.position + i) (Nat.le_add_right _ _) (by omega)
  have hread := readForm_of_agree h hsame
  rwa [Nat.add_sub_cancel' (Nat.le_of_lt hlt)] at hread

/-- `(a)` is read between any two tokens and at any place; without its bracket the reading wants
one.  Behind `^` an `x` is refused, and a list after it changes nothing. -/
theorem readForm_own_tokens_list :
    (Cursor.mk [['x'], ['('], ['a'], [')'], ['y']] 1 3).readForm
        = (.ok (.list [.symbol ['a']]), ⟨[['x'], ['('], ['a'], [')'], ['y']], 4, 3⟩) ∧
      (Cursor.mk [['^'], ['('], ['a'], [')'], ['"']] 1 3).readForm
        = (.ok (.list [.symbol ['a']]), ⟨[['^'], ['('], ['a'], [')'], ['"']], 4, 3⟩) ∧
      (Cursor.mk [['('], ['a'], [')']] 0 3).readForm
        = (.ok (.list [.symbol ['a']]), ⟨[['('], ['a'], [')']], 3, 3⟩) ∧
      (∃ error, (Cursor.mk [['x'], ['('], ['a']] 1 3).readForm
          = (.error error, ⟨[['x'], ['('], ['a']], 3, 3⟩) ∧ error.cause.missing? = some 3) ∧
      ((Cursor.mk [['(']] 0 0).readForm
          = (.error ⟨[], .unclosed .round 0 1⟩, ⟨[['(']], 1, 0⟩) ∧
        1 = 1 ∧ [['(']].length ≤ 1) ∧
      (Cursor.mk [['^'], ['x']] 0 0).readForm
        = (.error ⟨[noteOf metadataName], .noMapping 1 ['x']⟩, ⟨[['^'], ['x']], 2, 0⟩) ∧
      (Cursor.mk [['^'], ['x'], ['('], [')']] 0 0).readForm
        = (.error ⟨[noteOf metadataName], .noMapping 1 ['x']⟩,
          ⟨[['^'], ['x'], ['('], [')']], 2, 0⟩) := by
  have hlist : (Cursor.mk [['x'], ['('], ['a'], [')'], ['y']] 1 3).readForm
      = (.ok (.list [.symbol ['a']]), ⟨[['x'], ['('], ['a'], [')'], ['y']], 4, 3⟩) := by rfl
  have hopen : (Cursor.mk [['(']] 0 0).readForm
      = (.error ⟨[], .unclosed .round 0 1⟩, ⟨[['(']], 1, 0⟩) := by rfl
  have hmark : (Cursor.mk [['^'], ['x']] 0 0).readForm
      = (.error ⟨[noteOf metadataName], .noMapping 1 ['x']⟩, ⟨[['^'], ['x']], 2, 0⟩) := by rfl
  rcases readForm_own_tokens.1 _ _ 4 hlist with ⟨-, hhere, hanywhere, hcut⟩
  refine ⟨hlist, hhere _ ?_, hanywhere _ 0 (by decide), hcut 3 (by decide) (by decide),
    ⟨hopen, (readForm_own_tokens.2 _ _ 1 hopen).1 1 rfl⟩, hmark,
    (readForm_own_tokens.2 _ _ 2 hmark).2 rfl [['('], [')']]⟩
  intro i hi hnext
  have hplace : i = 1 ∨ i = 2 ∨ i = 3 := by
    have hi : 1 ≤ i := hi
    omega
  rcases hplace with rfl | rfl | rfl <;> rfl

end Cursor

end LispForms
