import LispForms.Proofs.Reader.Descent

/-!
# Discipline — what holds of a cursor along any run of calls

The calls of a cursor can be made in any order.  Each of them keeps the tokens and the bound on the
levels, and none of them goes back; so the same holds after any run of calls, by induction on the
run.  The loop that reads one form after another ends because a form takes a token at least.
-/

namespace LispForms

namespace Reader

variable {levels : Nat}

/-! ## 1. How far a reading goes -/

theorem le_position_run (state : ReadState) (position : Nat) (tokens : List Token) :
    position ≤ (run levels state position tokens).position := by
  induction tokens generalizing state position with
  | nil => exact Nat.le_refl position
  | cons token tokens ih =>
    rw [run_cons]
    cases feed levels position token state with
    | more next => exact Nat.le_trans (Nat.le_succ position) (ih next (position + 1))
    | done => exact Nat.le_succ position
    | refuse => exact Nat.le_refl position
    | reject => exact Nat.le_succ position

theorem position_run_le (state : ReadState) (position : Nat) (tokens : List Token) :
    (run levels state position tokens).position ≤ position + tokens.length := by
  cases hafter : stateAfter levels state position tokens with
  | none => exact (run_of_none hafter).1
  | some after => exact Nat.le_of_eq (congrArg Reading.position (run_of_some hafter))

end Reader

namespace Cursor

variable {tokens : List Token} {cursor after : Cursor} {result : Except ReadError Value}

def performAll (cursor : Cursor) (calls : List Call) : Cursor :=
  calls.foldl (fun current call => (current.perform call).2) cursor

/-- Reading forms as long as there are tokens, up to the first that fails, with no bound on how
often: the result of each reading, and the cursor after it. -/
inductive ReadsAll : Cursor → List (Except ReadError Value × Cursor) → Prop
  | atEnd {cursor : Cursor} (h : cursor.isEmpty = true) : ReadsAll cursor []
  | failed {cursor after : Cursor} {error : ReadError} (hmore : cursor.isEmpty = false)
      (h : cursor.readForm = (.error error, after)) : ReadsAll cursor [(.error error, after)]
  | read {cursor after : Cursor} {value : Value} {later : List (Except ReadError Value × Cursor)}
      (hmore : cursor.isEmpty = false) (h : cursor.readForm = (.ok value, after))
      (hlater : ReadsAll after later) : ReadsAll cursor ((.ok value, after) :: later)

/-! ## 2. One call -/

theorem remaining_eq_max (cursor : Cursor) :
    (cursor.remaining : Int) = max 0 (cursor.tokens.length - cursor.position) := by
  rw [remaining]
  omega

theorem isEmpty_iff_peek (cursor : Cursor) :
    cursor.isEmpty = true ↔ ∃ error, cursor.peek = .error error := by
  have hempty : cursor.isEmpty = true ↔ cursor.tokens[cursor.position]? = none := by
    rw [List.getElem?_eq_none_iff, isEmpty, decide_eq_true_iff, remaining]
    omega
  rw [hempty, peek]
  cases cursor.tokens[cursor.position]? <;> simp

theorem le_position_readForm (cursor : Cursor) : cursor.position ≤ cursor.readForm.2.position :=
  Reader.le_position_run _ _ _

/-- A reading goes no further than to the end of the tokens; past the end it stays. -/
theorem position_readForm_le (cursor : Cursor) :
    cursor.readForm.2.position ≤ max cursor.position cursor.tokens.length := by
  have hle : cursor.readForm.2.position
      ≤ cursor.position + (cursor.tokens.drop cursor.position).length :=
    Reader.position_run_le _ _ _
  rw [List.length_drop] at hle
  omega

/-- What a call can do to a cursor. -/
theorem perform_cases (cursor : Cursor) (call : Call) :
    (cursor.perform call).2 = cursor ∨ (cursor.perform call).2 = cursor.advance ∨
      cursor.descend = .ok (cursor.perform call).2 ∨ (cursor.perform call).2 = cursor.ascend ∨
      (cursor.perform call).2 = cursor.readForm.2 := by
  cases call with
  | peek =>
    rw [perform]
    cases cursor.peek <;> exact .inl rfl
  | next =>
    rw [perform, next]
    cases cursor.peek with
    | error => exact .inl rfl
    | ok => exact .inr (.inl rfl)
  | advance => exact .inr (.inl rfl)
  | descend =>
    rw [perform]
    cases cursor.descend with
    | error => exact .inl rfl
    | ok => exact .inr (.inr (.inl rfl))
  | ascend => exact .inr (.inr (.inr (.inl rfl)))
  | readForm =>
    rw [perform]
    rcases cursor.readForm with ⟨_ | _, after⟩ <;> exact .inr (.inr (.inr (.inr rfl)))
  | remaining => exact .inl rfl
  | isEmpty => exact .inl rfl

theorem tokens_perform (cursor : Cursor) (call : Call) :
    (cursor.perform call).2.tokens = cursor.tokens := by
  rcases perform_cases cursor call with h | h | h | h | h
  · rw [h]
  · rw [h]; rfl
  · rw [(eq_of_descend h).2]
  · rw [h]; rfl
  · rw [h]; rfl

theorem depth_perform_le (hdepth : cursor.depth ≤ maxDepth) (call : Call) :
    (cursor.perform call).2.depth ≤ maxDepth := by
  rcases perform_cases cursor call with h | h | h | h | h
  · rwa [h]
  · rwa [h]
  · obtain ⟨hlt, hinner⟩ := eq_of_descend h
    rw [hinner]
    exact hlt
  · rw [h]
    exact Nat.le_trans (Nat.sub_le _ _) hdepth
  · rwa [h]

theorem le_position_perform (cursor : Cursor) (call : Call) :
    cursor.position ≤ (cursor.perform call).2.position := by
  rcases perform_cases cursor call with h | h | h | h | h
  · exact Nat.le_of_eq (congrArg Cursor.position h.symm)
  · rw [h]
    exact Nat.le_succ _
  · exact Nat.le_of_eq (congrArg Cursor.position (eq_of_descend h).2).symm
  · exact Nat.le_of_eq (congrArg Cursor.position h).symm
  · rw [h]
    exact le_position_readForm cursor

/-- A call that only looks, takes or enters leaves the cursor where it is if it fails. -/
theorem eq_self_of_failure {call : Call} {error : ReadError}
    (hcall : call = .peek ∨ call = .next ∨ call = .descend)
    (h : cursor.perform call = (.failure error, after)) : after = cursor := by
  rcases hcall with rfl | rfl | rfl
  · rw [perform] at h
    split at h <;> cases h
    rfl
  · rw [perform, next] at h
    cases hpeek : cursor.peek <;> rw [hpeek] at h <;> cases h
    rfl
  · rw [perform] at h
    split at h <;> cases h
    rfl

/-! ## 3. A run of calls -/

theorem tokens_performAll (cursor : Cursor) (calls : List Call) :
    (cursor.performAll calls).tokens = cursor.tokens := by
  induction calls generalizing cursor with
  | nil => rfl
  | cons call calls ih => exact (ih _).trans (tokens_perform cursor call)

theorem depth_performAll_le (hdepth : cursor.depth ≤ maxDepth) (calls : List Call) :
    (cursor.performAll calls).depth ≤ maxDepth := by
  induction calls generalizing cursor with
  | nil => exact hdepth
  | cons call calls ih => exact ih (depth_perform_le hdepth call)

theorem le_position_performAll (cursor : Cursor) (calls : List Call) :
    cursor.position ≤ (cursor.performAll calls).position := by
  induction calls generalizing cursor with
  | nil => exact Nat.le_refl _
  | cons call calls ih => exact Nat.le_trans (le_position_perform cursor call) (ih _)

/-! ## 4. The loop over the forms -/

theorem remaining_lt_of_readForm {value : Value} (h : cursor.readForm = (.ok value, after)) :
    after.remaining < cursor.remaining := by
  have hread := descent_iff_readForm.mpr h
  have hlt := hread.position_lt
  rw [remaining, remaining, hread.eq_tokens_and_depth.1]
  omega

theorem remaining_pos_of_isEmpty (h : cursor.isEmpty = false) : 0 < cursor.remaining := by
  have hne := of_decide_eq_false h
  omega

theorem readsAll_readUpTo {bound : Nat} (hbound : cursor.remaining ≤ bound) :
    ReadsAll cursor (cursor.readUpTo bound) := by
  induction bound generalizing cursor with
  | zero =>
    have hempty : cursor.isEmpty = true := decide_eq_true (Nat.le_zero.mp hbound)
    exact .atEnd hempty
  | succ bound ih =>
    rw [readUpTo]
    cases hempty : cursor.isEmpty with
    | true => exact .atEnd hempty
    | false =>
      rw [if_neg Bool.false_ne_true]
      rcases hread : cursor.readForm with ⟨error | value, after⟩
      · exact .failed hempty hread
      · have hless := remaining_lt_of_readForm hread
        exact .read hempty hread (ih (by omega))

theorem ReadsAll.eq {outcomes others : List (Except ReadError Value × Cursor)}
    (h : ReadsAll cursor outcomes) (hothers : ReadsAll cursor others) : outcomes = others := by
  -- Each rule is the only one for what the cursor is and what its reading gives.
  induction h generalizing others with
  | atEnd hempty =>
    cases hothers with
    | atEnd => rfl
    | failed hmore => simp [hempty] at hmore
    | read hmore => simp [hempty] at hmore
  | failed hmore h =>
    cases hothers with
    | atEnd hempty => simp [hempty] at hmore
    | failed _ hother =>
      cases h.symm.trans hother
      rfl
    | read _ hother => cases h.symm.trans hother
  | read hmore h _ ih =>
    cases hothers with
    | atEnd hempty => simp [hempty] at hmore
    | failed _ hother => cases h.symm.trans hother
    | read _ hother hlater =>
      cases h.symm.trans hother
      rw [ih hlater]

/-- Each reading but a last, failed one takes a token. -/
theorem ReadsAll.length_le {outcomes : List (Except ReadError Value × Cursor)}
    (h : ReadsAll cursor outcomes) : outcomes.length ≤ cursor.remaining := by
  induction h with
  | atEnd => exact Nat.zero_le _
  | failed hmore => exact remaining_pos_of_isEmpty hmore
  | read _ h _ ih => exact Nat.lt_of_le_of_lt ih (remaining_lt_of_readForm h)

theorem readsAll_iff {outcomes : List (Except ReadError Value × Cursor)} :
    ReadsAll cursor outcomes ↔ outcomes = cursor.readAll := by
  have hreads := readsAll_readUpTo (Nat.le_refl cursor.remaining)
  constructor
  · exact fun h => h.eq hreads
  · rintro rfl
    exact hreads

/-! ## 5. The discipline -/

/-- Where the reading of a form leaves the cursor. -/
theorem readForm_moves (h : cursor.readForm = (result, after)) :
    after.tokens = cursor.tokens ∧ after.depth = cursor.depth ∧
      (∀ value, result = .ok value →
        cursor.position < after.position ∧ after.position ≤ cursor.tokens.length) ∧
      ∀ error, result = .error error →
        (cursor.position ≤ cursor.tokens.length → after.position ≤ cursor.tokens.length) ∧
        (cursor.tokens.length < cursor.position → after = cursor) := by
  have hread := descent_iff_readForm.mpr h
  refine ⟨hread.eq_tokens_and_depth.1, hread.depth_eq, ?_, ?_⟩
  · rintro value rfl
    exact hread.position_lt
  · rintro error -
    have hle := le_position_readForm cursor
    have hend := position_readForm_le cursor
    rw [h] at hle hend
    -- The reading goes no further than the end, and past the end there is no way forward.
    refine ⟨fun hposition => Nat.le_trans hend (Nat.max_le.mpr ⟨hposition, Nat.le_refl _⟩),
      fun hpast => ?_⟩
    have hstays : after.position = cursor.position := by
      rw [Nat.max_eq_left (Nat.le_of_lt hpast)] at hend
      exact Nat.le_antisymm hend hle
    rw [hread.eq_moved, hstays]

/-- Along any run of calls the tokens stay the same, no more levels are entered than there are, and
the cursor does not go back; it is empty exactly where there is nothing to peek at.  A call that
only looks, takes or enters and fails leaves it where it is.  Reading a form, whether it succeeds or
fails, is a descent that leaves every level it has entered; it takes a token at least if it succeeds
and stays among the tokens.  So the loop over the forms ends, with no more readings than there are
tokens. -/
theorem run_keeps_discipline (tokens : List Token) (calls : List Call) (cursor : Cursor)
    (hcursor : (ofTokens tokens).performAll calls = cursor) :
    (cursor.tokens = tokens ∧ cursor.depth ≤ maxDepth ∧
      (cursor.remaining : Int) = max 0 (tokens.length - cursor.position) ∧
      (cursor.isEmpty = true ↔ ∃ error, cursor.peek = .error error)) ∧
    (∀ more, cursor.position ≤ (cursor.performAll more).position) ∧
    (∀ call error after, call = .peek ∨ call = .next ∨ call = .descend →
      cursor.perform call = (.failure error, after) → after = cursor) ∧
    (∀ result after, cursor.readForm = (result, after) →
      after.tokens = tokens ∧ after.depth = cursor.depth ∧
      (∀ value, result = .ok value →
        cursor.position < after.position ∧ after.position ≤ tokens.length) ∧
      ∀ error, result = .error error →
        (cursor.position ≤ tokens.length → after.position ≤ tokens.length) ∧
        (tokens.length < cursor.position → after = cursor)) ∧
    (∀ result after, cursor.readForm = (result, after) ↔ Descent .form cursor result after) ∧
    (∀ stage result after, Descent stage cursor result after → after.depth = cursor.depth) ∧
    (∀ outcomes, ReadsAll cursor outcomes ↔ outcomes = cursor.readAll) ∧
    cursor.readAll.length ≤ cursor.remaining ∧ cursor.remaining ≤ tokens.length := by
  have htokens : cursor.tokens = tokens := by
    rw [← hcursor, tokens_performAll]
    rfl
  have hdepth : cursor.depth ≤ maxDepth := by
    rw [← hcursor]
    exact depth_performAll_le (Nat.zero_le _) calls
  subst htokens
  refine ⟨⟨rfl, hdepth, remaining_eq_max cursor, isEmpty_iff_peek cursor⟩,
    le_position_performAll cursor, fun call error after => eq_self_of_failure,
    fun result after => readForm_moves, fun result after => descent_iff_readForm.symm,
    fun stage result after => Descent.depth_eq, fun outcomes => readsAll_iff,
    (readsAll_iff.mpr rfl).length_le, Nat.sub_le _ _⟩

/-- Behind a list that has been read one level down, metadata fails inside the level that the form
enters; the levels are as before, and the loop ends with that reading.  Past the end nothing moves.
-/
theorem run_keeps_discipline_failed_metadata :
    (ofTokens [['('], ['a'], [')'], ['^'], ['x']]).performAll [.descend, .readForm]
        = ⟨[['('], ['a'], [')'], ['^'], ['x']], 3, 1⟩ ∧
      Descent .form ⟨[['('], ['a'], [')'], ['^'], ['x']], 3, 1⟩
        (.error ⟨[noteOf metadataName], .noMapping 4 ['x']⟩)
        ⟨[['('], ['a'], [')'], ['^'], ['x']], 5, 1⟩ ∧
      5 ≤ [['('], ['a'], [')'], ['^'], ['x']].length ∧
      (Cursor.mk [['('], ['a'], [')'], ['^'], ['x']] 3 1).readAll.length ≤ 2 ∧
      (ofTokens [['a']]).performAll [.advance, .advance] = ⟨[['a']], 2, 0⟩ ∧
      ∃ error after, (Cursor.mk [['a']] 2 0).readForm = (.error error, after) ∧
        after = ⟨[['a']], 2, 0⟩ := by
  have hcursor : (ofTokens [['('], ['a'], [')'], ['^'], ['x']]).performAll [.descend, .readForm]
      = ⟨[['('], ['a'], [')'], ['^'], ['x']], 3, 1⟩ := by rfl
  have hread : (Cursor.mk [['('], ['a'], [')'], ['^'], ['x']] 3 1).readForm
      = (.error ⟨[noteOf metadataName], .noMapping 4 ['x']⟩,
        ⟨[['('], ['a'], [')'], ['^'], ['x']], 5, 1⟩) := by rfl
  have hpast : (ofTokens [['a']]).performAll [.advance, .advance] = ⟨[['a']], 2, 0⟩ := by rfl
  have hend : (Cursor.mk [['a']] 2 0).readForm = (.error ⟨[], .noToken 2⟩, ⟨[['a']], 2, 0⟩) := by
    rfl
  rcases run_keeps_discipline _ _ _ hcursor with
    ⟨-, -, -, hform, hdescent, -, -, hlength, -⟩
  rcases run_keeps_discipline _ _ _ hpast with ⟨-, -, -, hstays, -⟩
  refine ⟨hcursor, (hdescent _ _).mp hread, ((hform _ _ hread).2.2.2 _ rfl).1 (by decide),
    hlength, hpast, _, _, hend, ((hstays _ _ hend).2.2.2 _ rfl).2 (by decide)⟩

end Cursor

end LispForms
