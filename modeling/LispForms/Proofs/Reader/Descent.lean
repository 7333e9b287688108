import LispForms.Proofs.Reader.Prefix

/-!
# Descent — reading a form level by level

The reader keeps the open forms on a stack.  The same forms can be read by a descent that has no
stack: it enters a level at the cursor, reads what the form is, calling itself for the forms inside,
and leaves the level again.  Each way in which it can end, with a form or with an error, is a rule
here (`Descent`); every rule leaves the cursor at the depth at which it found it, and there is a
descent from every cursor, with the result that the reader has (`descent_iff_readForm`).
-/

namespace LispForms.Cursor

open Reader (closing? resume run)

/-- What a descent is about to read. -/
inductive Stage where
  /-- A form, for which a level has to be entered. -/
  | form
  /-- A form whose level has been entered. -/
  | nested
  /-- The mapping behind the metadata mark. -/
  | braces
  /-- The rest of what stands in brackets. -/
  | inside (frame : OpenForm)

/-- What becomes of the result for the form behind a mark: it goes into a list, or gets a note. -/
def marked (note : Text) (build : Value → Value) : Except ReadError Value → Except ReadError Value
  | .ok value => .ok (build value)
  | .error error => .error (error.annotate note)

/-- What a descent from a cursor gives, and where it leaves the cursor. -/
inductive Descent : Stage → Cursor → Except ReadError Value → Cursor → Prop
  | tooDeep {cursor : Cursor} {error : ReadError} (h : cursor.descend = .error error) :
      Descent .form cursor (.error error) cursor
  | level {cursor inner after : Cursor} {result : Except ReadError Value}
      (h : cursor.descend = .ok inner) (hnested : Descent .nested inner result after) :
      Descent .form cursor result after.ascend
  | noToken {cursor : Cursor} {error : ReadError} (h : cursor.peek = .error error) :
      Descent .nested cursor (.error error) cursor
  | sequence {cursor after : Cursor} {token : Token} {shape : Shape}
      {result : Except ReadError Value} (h : cursor.peek = .ok token)
      (hkind : token.kind = .opens shape)
      (hinside : Descent (.inside (.sequence shape cursor.position [])) cursor.advance result
        after) :
      Descent .nested cursor result after
  | mapping {cursor after : Cursor} {token : Token} {result : Except ReadError Value}
      (h : cursor.peek = .ok token) (hkind : token.kind = .opensMapping)
      (hinside : Descent (.inside (.mapping .literal cursor.position .empty none)) cursor.advance
        result after) :
      Descent .nested cursor result after
  | abbreviation {cursor after : Cursor} {token : Token} {sigil : Sigil}
      {result : Except ReadError Value} (h : cursor.peek = .ok token)
      (hkind : token.kind = .abbreviates sigil)
      (hform : Descent .form cursor.advance result after) :
      Descent .nested cursor
        (marked (noteOf sigil.name) (fun value => .call sigil.name [value]) result) after
  | noMetadata {cursor after : Cursor} {token : Token} {error : ReadError}
      (h : cursor.peek = .ok token) (hkind : token.kind = .describes)
      (hbraces : Descent .braces cursor.advance (.error error) after) :
      Descent .nested cursor (.error (error.annotate (noteOf metadataName))) after
  | description {cursor between after : Cursor} {token : Token} {metadata : Mapping}
      {result : Except ReadError Value} (h : cursor.peek = .ok token)
      (hkind : token.kind = .describes)
      (hbraces : Descent .braces cursor.advance (.ok metadata.toValue) between)
      (hform : Descent .form between result after) :
      Descent .nested cursor
        (marked (noteOf metadataName) (fun value => .call metadataName [value, metadata.toValue])
          result) after
  | atom {cursor after : Cursor} {token : Token} {value : Value}
      (h : cursor.next = (.ok token, after)) (hkind : token.kind = .atom)
      (hatom : Value.ofAtom? token = some value) :
      Descent .nested cursor (.ok value) after
  | malformedString {cursor after : Cursor} {token : Token}
      (h : cursor.next = (.ok token, after)) (hkind : token.kind = .atom)
      (hatom : Value.ofAtom? token = none) :
      Descent .nested cursor (.error ⟨[], .malformedString cursor.position⟩) after
  | noBrace {cursor after : Cursor} {error : ReadError}
      (h : cursor.next = (.error error, after)) :
      Descent .braces cursor (.error error) after
  | noMapping {cursor after : Cursor} {token : Token} (h : cursor.next = (.ok token, after))
      (hkind : token.kind ≠ .opensMapping) :
      Descent .braces cursor (.error ⟨[], .noMapping cursor.position token⟩) after
  | braces {cursor inner after : Cursor} {token : Token} {result : Except ReadError Value}
      (h : cursor.next = (.ok token, inner)) (hkind : token.kind = .opensMapping)
      (hinside : Descent (.inside (.mapping .metadata cursor.position .empty none)) inner result
        after) :
      Descent .braces cursor result after
  | unclosedSequence {cursor : Cursor} {error : ReadError} {shape : Shape} {opening : Nat}
      {items : List Value} (h : cursor.peek = .error error) :
      Descent (.inside (.sequence shape opening items)) cursor
        (.error ⟨[], .unclosed shape.bracket opening cursor.position⟩) cursor
  | unclosedMapping {cursor : Cursor} {error : ReadError} {purpose : Purpose} {opening : Nat}
      {entries : Mapping} {key : Option Value} (h : cursor.peek = .error error) :
      Descent (.inside (.mapping purpose opening entries key)) cursor
        (.error ⟨[], .unclosed .curly opening cursor.position⟩) cursor
  | closedSequence {cursor : Cursor} {shape : Shape} {opening : Nat} {items : List Value}
      (h : cursor.peek = .ok shape.bracket.closer) :
      Descent (.inside (.sequence shape opening items)) cursor
        (.ok (.sequence shape items.reverse)) cursor.advance
  | closedMapping {cursor : Cursor} {purpose : Purpose} {opening : Nat} {entries : Mapping}
      (h : cursor.peek = .ok Bracket.curly.closer) :
      Descent (.inside (.mapping purpose opening entries none)) cursor (.ok entries.toValue)
        cursor.advance
  | keyWithoutValue {cursor : Cursor} {purpose : Purpose} {opening : Nat} {entries : Mapping}
      {key : Value} (h : cursor.peek = .ok Bracket.curly.closer) :
      Descent (.inside (.mapping purpose opening entries (some key))) cursor
        (.error ⟨[], .keyWithoutValue opening⟩) cursor
  | failed {cursor after : Cursor} {token closer : Token} {frame : OpenForm} {error : ReadError}
      (h : cursor.peek = .ok token) (hframe : frame.closer? = some closer) (hopen : token ≠ closer)
      (hform : Descent .form cursor (.error error) after) :
      Descent (.inside frame) cursor (.error error) after
  | next {cursor between after : Cursor} {token closer : Token} {frame : OpenForm} {value : Value}
      {result : Except ReadError Value} (h : cursor.peek = .ok token)
      (hframe : frame.closer? = some closer) (hopen : token ≠ closer)
      (hform : Descent .form cursor (.ok value) between)
      (hrest : Descent (.inside (frame.push value)) between result after) :
      Descent (.inside frame) cursor result after

/-! ## 1. Moves of a cursor -/

def rest (cursor : Cursor) : List Token := cursor.tokens.drop cursor.position

variable {cursor inner after : Cursor} {stage : Stage} {token : Token} {error : ReadError}
  {result : Except ReadError Value}

theorem rest_of_peek (h : cursor.peek = .ok token) :
    cursor.rest = token :: cursor.advance.rest := by
  unfold peek at h
  split at h
  · next htoken =>
    cases h
    rw [rest, List.drop_eq_getElem?_toList_append, htoken]
    rfl
  · cases h

theorem eq_noToken_of_peek (h : cursor.peek = .error error) :
    cursor.rest = [] ∧ error = ⟨[], .noToken cursor.position⟩ := by
  unfold peek at h
  split at h
  · cases h
  · next htoken =>
    cases h
    exact ⟨List.drop_eq_nil_of_le (List.getElem?_eq_none_iff.mp htoken), rfl⟩

theorem next_of_peek (h : cursor.peek = .ok token) : cursor.next = (.ok token, cursor.advance) := by
  rw [next, h]

theorem next_of_peek_error (h : cursor.peek = .error error) :
    cursor.next = (.error error, cursor) := by
  rw [next, h]

theorem eq_advance_of_next (h : cursor.next = (.ok token, after)) :
    cursor.peek = .ok token ∧ after = cursor.advance := by
  unfold next at h
  split at h
  · next hpeek =>
    cases h
    exact ⟨hpeek, rfl⟩
  · cases h

theorem eq_self_of_next (h : cursor.next = (.error error, after)) :
    cursor.peek = .error error ∧ after = cursor := by
  unfold next at h
  split at h
  · cases h
  · next hpeek =>
    cases h
    exact ⟨hpeek, rfl⟩

theorem eq_of_descend (h : cursor.descend = .ok inner) :
    cursor.depth < maxDepth ∧ inner = { cursor with depth := cursor.depth + 1 } := by
  unfold descend at h
  split at h
  · cases h
  · next hdepth =>
    cases h
    exact ⟨Nat.not_le.mp hdepth, rfl⟩

theorem eq_tooDeep_of_descend (h : cursor.descend = .error error) :
    maxDepth ≤ cursor.depth ∧ error = ⟨[], .tooDeep cursor.position⟩ := by
  unfold descend at h
  split at h
  · next hdepth =>
    cases h
    exact ⟨hdepth, rfl⟩
  · cases h

/-! ## 2. Every level is left -/

/-- A descent moves the cursor along the same tokens and leaves the levels that it enters. -/
theorem Descent.eq_tokens_and_depth (h : Descent stage cursor result after) :
    after.tokens = cursor.tokens ∧ after.depth = cursor.depth := by
  induction h with
  | level h _ ih =>
    obtain ⟨-, rfl⟩ := eq_of_descend h
    refine ⟨ih.1, ?_⟩
    rw [ascend, ih.2]
    rfl
  | sequence _ _ _ ih => exact ih
  | mapping _ _ _ ih => exact ih
  | abbreviation _ _ _ ih => exact ih
  | noMetadata _ _ _ ih => exact ih
  | description _ _ _ _ ih ihform => exact ⟨ihform.1.trans ih.1, ihform.2.trans ih.2⟩
  | atom h => rw [(eq_advance_of_next h).2]; exact ⟨rfl, rfl⟩
  | malformedString h => rw [(eq_advance_of_next h).2]; exact ⟨rfl, rfl⟩
  | noBrace h => rw [(eq_self_of_next h).2]; exact ⟨rfl, rfl⟩
  | noMapping h => rw [(eq_advance_of_next h).2]; exact ⟨rfl, rfl⟩
  | braces h _ _ ih =>
    obtain ⟨-, rfl⟩ := eq_advance_of_next h
    exact ih
  | failed _ _ _ _ ih => exact ih
  | next _ _ _ _ _ ih ihrest => exact ⟨ihrest.1.trans ih.1, ihrest.2.trans ih.2⟩
  | _ => exact ⟨rfl, rfl⟩

theorem Descent.depth_eq (h : Descent stage cursor result after) : after.depth = cursor.depth :=
  h.eq_tokens_and_depth.2

theorem Descent.eq_moved (h : Descent stage cursor result after) :
    after = { cursor with position := after.position } := by
  rw [← h.eq_tokens_and_depth.1, ← h.eq_tokens_and_depth.2]

def Stage.MakesMapping : Stage → Prop
  | .braces => True
  | .inside (.mapping ..) => True
  | _ => False

theorem Descent.exists_toValue (h : Descent stage cursor result after) {value : Value}
    (hresult : result = .ok value) (hstage : stage.MakesMapping) :
    ∃ entries : Mapping, value = entries.toValue := by
  induction h with
  | braces _ _ _ ih => exact ih hresult trivial
  | closedMapping =>
    cases hresult
    exact ⟨_, rfl⟩
  | @next _ _ _ _ _ frame pushed _ _ _ _ _ _ _ ih =>
    refine ih hresult ?_
    cases frame with
    | mapping _ _ _ key => cases key <;> trivial
    | _ => cases hstage
  -- The other rules are for other stages, or end with an error.
  | _ => first | exact hstage.elim | cases hresult

/-! ## 3. The descent and the stack -/

/-- Where the reader stands at the stage, inside the open forms. -/
def Stage.state (opened : List OpenForm) : Stage → ReadState
  | .form => .form opened
  | .nested => .form opened
  | .braces => .brace opened
  | .inside frame => .form (frame :: opened)

/-- The levels entered at the stage, besides those of the open forms. -/
def Stage.entered : Stage → Nat
  | .form => 0
  | .nested => 1
  | .braces => 1
  | .inside _ => 1

/-- Hands metadata to the form that it describes, which comes next. -/
def describe (metadata : Value) (opened : List OpenForm) : Progress :=
  match metadata with
  | .mapping entries => .more (.form (.description ⟨entries⟩ :: opened))
  | other => Reader.finish other opened

/-- What the reader does with the value that it has read at the stage. -/
def Stage.hand (opened : List OpenForm) (value : Value) : Stage → Progress
  | .braces => describe value opened
  | .inside (.mapping .metadata ..) => describe value opened
  | _ => Reader.finish value opened

/-- If the innermost open form is one in brackets, a token stands at the cursor that does not close
them. -/
def Clear (opened : List OpenForm) (cursor : Cursor) : Prop :=
  ∀ closer ∈ closing? opened, ∃ token, cursor.peek = .ok token ∧ token ≠ closer

/-- A descent looks for a form only where the innermost open form is not closed, and inside only
of what can be closed. -/
def Stage.Ready (opened : List OpenForm) (cursor : Cursor) : Stage → Prop
  | .form => Clear opened cursor
  | .nested => Clear opened cursor
  | .braces => True
  | .inside frame => ∃ closer, frame.closer? = some closer

/-- How the reader ends if a descent from its state has ended with the result. -/
def outcome (levels : Nat) (opened : List OpenForm) (stage : Stage) (after : Cursor) :
    Except ReadError Value → Reading
  | .ok value => resume levels after.position after.rest (stage.hand opened value)
  | .error error =>
    ⟨.error ⟨(stage.state opened).notes ++ error.notes, error.cause⟩, after.position⟩

variable {levels : Nat} {opened : List OpenForm}

theorem notes_cons (frame : OpenForm) (opened : List OpenForm) :
    (ReadState.form (frame :: opened)).notes
      = (ReadState.form opened).notes ++ frame.note?.toList := by
  cases hnote : frame.note? <;> simp [ReadState.notes, hnote]

theorem run_of_peek (state : ReadState) (h : cursor.peek = .ok token) :
    run levels state cursor.position cursor.rest
      = resume levels (cursor.position + 1) cursor.advance.rest
          (Reader.feed levels cursor.position token state) := by
  rw [rest_of_peek h, Reader.run_cons]

theorem clear_of_none (hclosing : closing? opened = none) : Clear opened cursor := by
  intro closer hcloser
  rw [hclosing] at hcloser
  cases hcloser

theorem clear_of_closer? {frame : OpenForm} {closer : Token} (hframe : frame.closer? = some closer)
    (h : cursor.peek = .ok token) (hopen : token ≠ closer) : Clear (frame :: opened) cursor := by
  intro other hother
  cases hframe.symm.trans hother
  exact ⟨token, h, hopen⟩

theorem closing?_ne_of_clear (hclear : Clear opened cursor) (h : cursor.peek = .ok token) :
    closing? opened ≠ some token := by
  intro hclosing
  obtain ⟨other, hother, hne⟩ := hclear token hclosing
  rw [h] at hother
  exact hne (Except.ok.inj hother).symm

theorem closing?_eq_none_of_clear (hclear : Clear opened cursor) (h : cursor.peek = .error error) :
    closing? opened = none := by
  cases hclosing : closing? opened with
  | none => rfl
  | some closer =>
    obtain ⟨token, htoken, -⟩ := hclear closer hclosing
    rw [h] at htoken
    cases htoken

/-- Where the descent looks for a form, the reader enters one. -/
theorem run_eq_enter (hclear : Clear opened cursor) (h : cursor.peek = .ok token) :
    run levels (.form opened) cursor.position cursor.rest
      = resume levels (cursor.position + 1) cursor.advance.rest
          (Reader.enter levels cursor.position token opened) := by
  rw [run_of_peek _ h, Reader.feed_eq_enter (closing?_ne_of_clear hclear h)]

theorem lt_of_entered {left : Nat}
    (hlevels : opened.length + Stage.nested.entered + left = levels) : opened.length < levels := by
  have hlevels : opened.length + 1 + left = levels := hlevels
  omega

theorem outcome_cause (cause : Cause) :
    outcome levels opened stage after (.error ⟨[], cause⟩)
      = ⟨.error ((stage.state opened).error cause), after.position⟩ := by
  rw [outcome, List.append_nil]
  rfl

/-- Stages with the same notes around them, which hand on a value in the same way, end alike. -/
theorem outcome_congr {other : Stage}
    (hnotes : (stage.state opened).notes = (other.state opened).notes)
    (hhand : ∀ value, stage.hand opened value = other.hand opened value) :
    outcome levels opened stage after result = outcome levels opened other after result := by
  cases result with
  | ok value => rw [outcome, outcome, hhand]
  | error error => rw [outcome, outcome, hnotes]

theorem outcome_inside {frame : OpenForm} {other : Stage}
    (hnotes : (other.state opened).notes = (ReadState.form opened).notes ++ frame.note?.toList)
    (hhand : ∀ value, (Stage.inside frame).hand opened value = other.hand opened value) :
    outcome levels opened (.inside frame) after result
      = outcome levels opened other after result :=
  outcome_congr ((notes_cons frame opened).trans hnotes.symm) hhand

theorem outcome_push {frame : OpenForm} {closer : Token} (hframe : frame.closer? = some closer)
    (value : Value) :
    outcome levels opened (.inside (frame.push value)) after result
      = outcome levels opened (.inside frame) after result := by
  cases frame with
  | sequence => exact outcome_inside (notes_cons _ opened) fun _ => rfl
  | mapping purpose _ _ key =>
    -- What the mapping is for decides where it goes, and a value inside does not change that.
    cases key <;> cases purpose <;> exact outcome_inside (notes_cons _ opened) fun _ => rfl
  | abbreviation => cases hframe
  | description => cases hframe

/-- What the reader makes of the form behind a mark is what the descent makes of the mark. -/
theorem outcome_marked {frame : OpenForm} {note : Text} {build : Value → Value}
    (hnote : frame.note? = some note)
    (hfinish : ∀ value,
      Reader.finish value (frame :: opened) = Reader.finish (build value) opened) :
    outcome levels (frame :: opened) .form after result
      = outcome levels opened .nested after (marked note build result) := by
  cases result with
  | ok value => exact congrArg (resume levels after.position after.rest) (hfinish value)
  | error error =>
    rw [outcome, marked, outcome, Stage.state, notes_cons, hnote, List.append_assoc]
    rfl

/-- Where the descent is, whatever forms are open around it, the reader ends as the descent does:
it hands on the value, or fails where the descent fails and adds the notes of the open forms. -/
theorem Descent.run_eq (h : Descent stage cursor result after) {levels : Nat}
    {opened : List OpenForm}
    (hlevels : opened.length + stage.entered + (maxDepth - cursor.depth) = levels)
    (hready : stage.Ready opened cursor) :
    run levels (stage.state opened) cursor.position cursor.rest
      = outcome levels opened stage after result := by
  induction h generalizing opened with
  | @tooDeep cursor error h =>
    -- The open forms take up all the levels, and the reader does not look for a token first.
    obtain ⟨hdepth, rfl⟩ := eq_tooDeep_of_descend h
    have hlevels : opened.length + 0 + (maxDepth - cursor.depth) = levels := hlevels
    have hnone : levels ≤ opened.length := by omega
    rw [outcome_cause]
    cases hclosing : closing? opened with
    | none => exact Reader.run_of_tooDeep hnone hclosing _
    | some closer =>
      obtain ⟨token, hpeek, -⟩ := hready closer hclosing
      show run levels (.form opened) cursor.position cursor.rest = _
      rw [run_eq_enter hready hpeek, Reader.enter, if_pos hnone]
      rfl
  | @level cursor _ _ result h _ ih =>
    obtain ⟨hdepth, rfl⟩ := eq_of_descend h
    have hlevels : opened.length + 0 + (maxDepth - cursor.depth) = levels := hlevels
    have hinner : opened.length + 1 + (maxDepth - (cursor.depth + 1)) = levels := by omega
    -- To the reader the level that is entered is one that it has.
    have hrun := ih hinner hready
    cases result <;> exact hrun
  | @noToken cursor error h =>
    obtain ⟨hrest, rfl⟩ := eq_noToken_of_peek h
    show run levels (.form opened) cursor.position cursor.rest = _
    rw [outcome_cause, hrest, run,
      Reader.outOfTokens_of_none (closing?_eq_none_of_clear hready h),
      if_neg (Nat.not_le.mpr (lt_of_entered hlevels))]
    rfl
  | @sequence cursor after token shape result h hkind _ ih =>
    show run levels (.form opened) cursor.position cursor.rest = _
    rw [run_eq_enter hready h, Reader.enter_eq (lt_of_entered hlevels), hkind]
    exact (ih hlevels ⟨_, rfl⟩).trans (outcome_inside (List.append_nil _).symm fun _ => rfl)
  | @mapping cursor after token result h hkind _ ih =>
    show run levels (.form opened) cursor.position cursor.rest = _
    rw [run_eq_enter hready h, Reader.enter_eq (lt_of_entered hlevels), hkind]
    exact (ih hlevels ⟨_, rfl⟩).trans (outcome_inside (List.append_nil _).symm fun _ => rfl)
  | @abbreviation cursor after token sigil result h hkind _ ih =>
    show run levels (.form opened) cursor.position cursor.rest = _
    rw [run_eq_enter hready h, Reader.enter_eq (lt_of_entered hlevels), hkind]
    exact (@ih (.abbreviation sigil :: opened) hlevels (clear_of_none rfl)).trans
      (outcome_marked rfl fun _ => rfl)
  | @noMetadata cursor after token error h hkind _ ih =>
    show run levels (.form opened) cursor.position cursor.rest = _
    rw [run_eq_enter hready h, Reader.enter_eq (lt_of_entered hlevels), hkind]
    refine (ih hlevels trivial).trans ?_
    -- The reader keeps the mark's note with the open forms, the descent adds it to the error.
    show (⟨.error ⟨(_ ++ [_]) ++ _, _⟩, _⟩ : Reading) = _
    rw [List.append_assoc]
    rfl
  | @description cursor between after token metadata result h hkind hbraces _ ih ihform =>
    show run levels (.form opened) cursor.position cursor.rest = _
    rw [run_eq_enter hready h, Reader.enter_eq (lt_of_entered hlevels), hkind]
    refine (ih hlevels trivial).trans ?_
    have hlevels : (OpenForm.description metadata :: opened).length + 0
        + (maxDepth - between.depth) = levels := by
      rw [hbraces.depth_eq]
      exact hlevels
    exact (ihform hlevels (clear_of_none rfl)).trans (outcome_marked rfl fun _ => rfl)
  | @atom cursor after token value h hkind hatom =>
    obtain ⟨hpeek, rfl⟩ := eq_advance_of_next h
    show run levels (.form opened) cursor.position cursor.rest = _
    rw [run_eq_enter hready hpeek, Reader.enter_eq (lt_of_entered hlevels), hkind, hatom]
    rfl
  | @malformedString cursor after token h hkind hatom =>
    obtain ⟨hpeek, rfl⟩ := eq_advance_of_next h
    show run levels (.form opened) cursor.position cursor.rest = _
    rw [outcome_cause, run_eq_enter hready hpeek, Reader.enter_eq (lt_of_entered hlevels), hkind,
      hatom]
    rfl
  | @noBrace cursor after error h =>
    obtain ⟨hpeek, rfl⟩ := eq_self_of_next h
    obtain ⟨hrest, rfl⟩ := eq_noToken_of_peek hpeek
    rw [outcome_cause, hrest]
    rfl
  | @noMapping cursor after token h hkind =>
    obtain ⟨hpeek, rfl⟩ := eq_advance_of_next h
    rw [outcome_cause, run_of_peek _ hpeek, Stage.state, Reader.feed, if_neg hkind]
    rfl
  | @braces cursor inner after token result h hkind _ ih =>
    obtain ⟨hpeek, rfl⟩ := eq_advance_of_next h
    show run levels (.brace opened) cursor.position cursor.rest = _
    rw [run_of_peek _ hpeek, Reader.feed, if_pos hkind]
    exact (ih hlevels ⟨_, rfl⟩).trans (outcome_inside rfl fun _ => rfl)
  | @unclosedSequence cursor error shape opening items h =>
    rw [outcome_cause, (eq_noToken_of_peek h).1]
    rfl
  | @unclosedMapping cursor error purpose opening entries key h =>
    rw [outcome_cause, (eq_noToken_of_peek h).1]
    rfl
  | @closedSequence cursor shape opening items h =>
    rw [run_of_peek _ h, Stage.state, Reader.feed, if_pos rfl]
    rfl
  | @closedMapping cursor purpose opening entries h =>
    rw [run_of_peek _ h, Stage.state, Reader.feed, if_pos rfl]
    cases purpose <;> rfl
  | @keyWithoutValue cursor purpose opening entries key h =>
    rw [outcome_cause, run_of_peek _ h, Stage.state, Reader.feed, if_pos rfl]
    rfl
  | @failed cursor after token closer frame error h hframe hopen _ ih =>
    exact @ih (frame :: opened) hlevels (clear_of_closer? hframe h hopen)
  | @next cursor between after token closer frame value result h hframe hopen hform _ ih ihrest =>
    refine (@ih (frame :: opened) hlevels (clear_of_closer? hframe h hopen)).trans ?_
    have hlevels : opened.length + 1 + (maxDepth - between.depth) = levels := by
      rw [hform.depth_eq]
      exact hlevels
    -- The form goes into the open one, inside of which the descent goes on.
    show resume levels _ _ (Reader.finish value (frame :: opened)) = _
    rw [Reader.finish_of_closer? hframe]
    exact (ihrest hlevels ⟨closer, Reader.closer?_push hframe value⟩).trans
      (outcome_push hframe value)

theorem Descent.readForm_eq (h : Descent .form cursor result after) :
    cursor.readForm = (result, after) := by
  have hrun : run (maxDepth - cursor.depth) (.form []) cursor.position cursor.rest
      = outcome (maxDepth - cursor.depth) [] .form after result :=
    h.run_eq (Nat.zero_add _) (clear_of_none rfl)
  rw [h.eq_moved]
  refine readForm_eq_iff.mpr ?_
  cases result <;> exact hrun

theorem Descent.position_lt {value : Value} (h : Descent .form cursor (.ok value) after) :
    cursor.position < after.position ∧ after.position ≤ cursor.tokens.length := by
  have hread : cursor.readForm = (.ok value, { cursor with position := after.position }) := by
    rw [← h.eq_moved]
    exact h.readForm_eq
  exact position_lt_of_readForm hread

/-! ## 4. There is a descent from every cursor -/

section Existence

variable {depth : Nat}
  (hform : ∀ cursor : Cursor, cursor.depth = depth →
    ∃ result after, Descent .form cursor result after)

include hform

/-- Inside brackets the forms are read one after another, each with a token of its own at least. -/
theorem exists_inside (cursor : Cursor) (frame : OpenForm) {closer : Token}
    (hdepth : cursor.depth = depth) (hframe : frame.closer? = some closer) :
    ∃ result after, Descent (.inside frame) cursor result after := by
  generalize hremaining : cursor.remaining = count
  induction count using Nat.strongRecOn generalizing cursor frame with
  | ind count ih =>
    cases hpeek : cursor.peek with
    | error error =>
      cases frame with
      | sequence => exact ⟨_, _, .unclosedSequence hpeek⟩
      | mapping => exact ⟨_, _, .unclosedMapping hpeek⟩
      | abbreviation => cases hframe
      | description => cases hframe
    | ok token =>
      by_cases hclosed : token = closer
      · subst hclosed
        cases frame with
        | sequence =>
          cases hframe
          exact ⟨_, _, .closedSequence hpeek⟩
        | mapping _ _ _ key =>
          cases hframe
          cases key with
          | none => exact ⟨_, _, .closedMapping hpeek⟩
          | some key => exact ⟨_, _, .keyWithoutValue hpeek⟩
        | abbreviation => cases hframe
        | description => cases hframe
      · obtain ⟨result, between, hread⟩ := hform cursor hdepth
        cases result with
        | error error => exact ⟨_, _, .failed hpeek hframe hclosed hread⟩
        | ok value =>
          -- The form has taken a token, so there is less left to read.
          obtain ⟨htokens, hbetween⟩ := hread.eq_tokens_and_depth
          obtain ⟨hlt, hle⟩ := hread.position_lt
          have hless : between.remaining < count := by
            rw [← hremaining, remaining, remaining, htokens]
            omega
          obtain ⟨result, after, hrest⟩ := ih _ hless between (frame.push value)
            (hbetween.trans hdepth) (Reader.closer?_push hframe value) rfl
          exact ⟨_, _, .next hpeek hframe hclosed hread hrest⟩

theorem exists_braces (cursor : Cursor) (hdepth : cursor.depth = depth) :
    ∃ result after, Descent .braces cursor result after := by
  cases hpeek : cursor.peek with
  | error error => exact ⟨_, _, .noBrace (next_of_peek_error hpeek)⟩
  | ok token =>
    by_cases hkind : token.kind = .opensMapping
    · obtain ⟨result, after, hinside⟩ := exists_inside hform cursor.advance
        (.mapping .metadata cursor.position .empty none) hdepth rfl
      exact ⟨_, _, .braces (next_of_peek hpeek) hkind hinside⟩
    · exact ⟨_, _, .noMapping (next_of_peek hpeek) hkind⟩

theorem exists_nested (cursor : Cursor) (hdepth : cursor.depth = depth) :
    ∃ result after, Descent .nested cursor result after := by
  cases hpeek : cursor.peek with
  | error error => exact ⟨_, _, .noToken hpeek⟩
  | ok token =>
    cases hkind : token.kind with
    | opens shape =>
      obtain ⟨result, after, hinside⟩ := exists_inside hform cursor.advance
        (.sequence shape cursor.position []) hdepth rfl
      exact ⟨_, _, .sequence hpeek hkind hinside⟩
    | opensMapping =>
      obtain ⟨result, after, hinside⟩ := exists_inside hform cursor.advance
        (.mapping .literal cursor.position .empty none) hdepth rfl
      exact ⟨_, _, .mapping hpeek hkind hinside⟩
    | abbreviates sigil =>
      obtain ⟨result, after, hread⟩ := hform cursor.advance hdepth
      exact ⟨_, _, .abbreviation hpeek hkind hread⟩
    | describes =>
      obtain ⟨result, between, hbraces⟩ := exists_braces hform cursor.advance hdepth
      cases result with
      | error error => exact ⟨_, _, .noMetadata hpeek hkind hbraces⟩
      | ok value =>
        obtain ⟨metadata, rfl⟩ := hbraces.exists_toValue rfl trivial
        obtain ⟨result, after, hread⟩ := hform between (hbraces.depth_eq.trans hdepth)
        exact ⟨_, _, .description hpeek hkind hbraces hread⟩
    | atom =>
      cases hatom : Value.ofAtom? token with
      | none => exact ⟨_, _, .malformedString (next_of_peek hpeek) hkind hatom⟩
      | some value => exact ⟨_, _, .atom (next_of_peek hpeek) hkind hatom⟩

end Existence

/-- By induction on the levels that are left; a form inside another has one less. -/
theorem exists_descent (cursor : Cursor) : ∃ result after, Descent .form cursor result after := by
  generalize hleft : maxDepth - cursor.depth = left
  induction left generalizing cursor with
  | zero =>
    have hdescend : cursor.descend = .error ⟨[], .tooDeep cursor.position⟩ := if_pos (by omega)
    exact ⟨_, _, .tooDeep hdescend⟩
  | succ left ih =>
    have hdescend : cursor.descend = .ok { cursor with depth := cursor.depth + 1 } :=
      if_neg (by omega)
    have hform : ∀ inner : Cursor, inner.depth = cursor.depth + 1 →
        ∃ result after, Descent .form inner result after := fun inner hinner => ih inner (by omega)
    obtain ⟨result, after, hnested⟩ :=
      exists_nested hform { cursor with depth := cursor.depth + 1 } rfl
    exact ⟨_, _, .level hdescend hnested⟩

/-- Reading a form is the descent from the cursor. -/
theorem descent_iff_readForm :
    Descent .form cursor result after ↔ cursor.readForm = (result, after) := by
  constructor
  · exact Descent.readForm_eq
  · intro h
    obtain ⟨result', after', hdescent⟩ := exists_descent cursor
    cases h.symm.trans hdescent.readForm_eq
    exact hdescent

end LispForms.Cursor
