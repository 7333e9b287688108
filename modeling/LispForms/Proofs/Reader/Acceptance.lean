import LispForms.Proofs.Reader.Run

/-!
# Acceptance — what is read is what the grammar derives

A reading that does not fail has begun with a segment of the grammar, so reading forms and deriving
them are the same.  As the reader has one answer, no tokens begin with two different segments, and
no segment has two values.
-/

namespace LispForms.Reader

variable {levels position : Nat} {opened : List OpenForm} {token closer : Token}

def Fails (reading : Reading) : Prop := ∃ error, reading.result = .error error

def BeginsWithForm (levels : Nat) (tokens : List Token) : Prop :=
  ∃ segment value rest, tokens = segment ++ rest ∧ Derives levels segment value

/-- From any tokens up to the given number, and inside any open forms, the reader fails unless the
tokens begin with a form. -/
def ReadsUpTo (levels bound : Nat) : Prop :=
  ∀ (tokens : List Token) (opened : List OpenForm) (position : Nat), tokens.length ≤ bound →
    Begins opened tokens → Fails (run levels (.form opened) position tokens) ∨
      BeginsWithForm (levels - opened.length) tokens

section
variable {bound : Nat} (hread : ReadsUpTo levels bound) (hlevels : opened.length < levels)
include hread hlevels

/-- Inside an open form that a bracket closes, the reader fails unless the tokens are forms in a row
and then that bracket. -/
theorem fails_or_segments (position : Nat) (tokens : List Token) {frame : OpenForm}
    (hframe : frame.closer? = some closer) (hbound : tokens.length ≤ bound) :
    Fails (run levels (.form (frame :: opened)) position tokens) ∨
      ∃ pieces rest, tokens = segments pieces ++ closer :: rest ∧
        (∀ piece ∈ pieces, Derives (levels - (opened.length + 1)) piece.segment piece.value) ∧
        ∀ piece ∈ pieces, piece.segment.head? ≠ some closer := by
  match tokens with
  | [] => exact .inl ⟨_, rfl⟩
  | token :: more =>
    by_cases hcloser : token = closer
    · exact .inr ⟨[], more, by rw [hcloser]; rfl, by simp, by simp⟩
    · -- A form comes next, and what stands behind it is a shorter row.
      have hhead : (token :: more).head? ≠ some closer := fun h => hcloser (Option.some.inj h)
      rcases hread (token :: more) (frame :: opened) position hbound
        (begins_of_closer? hframe hhead) with hfails | ⟨segment, value, rest, htokens, hderives⟩
      · exact .inl hfails
      · have hsegment : segment.head? ≠ some closer := by
          rwa [htokens, hderives.head?_append] at hhead
        have hrun := hderives.reads levels position (frame :: opened) rest
          (by rw [List.length_cons]; omega) (begins_of_closer? hframe hsegment)
        rw [finish_of_closer? hframe, resume] at hrun
        have hpos := List.length_pos_iff.mpr hderives.ne_nil
        have hlength := congrArg List.length htokens
        rw [List.length_append] at hlength
        rcases fails_or_segments (position + segment.length) rest (closer?_push hframe value)
          (by omega) with hfails | ⟨pieces, rest, hrest, hpieces, hcloser⟩
        · rw [htokens, hrun]
          exact .inl hfails
        · refine .inr ⟨⟨segment, value⟩ :: pieces, rest, ?_, ?_, ?_⟩
          · rw [htokens, hrest, segments, segments, List.flatMap_cons, List.append_assoc]
          · exact List.forall_mem_cons.mpr ⟨hderives, hpieces⟩
          · exact List.forall_mem_cons.mpr ⟨hsegment, hcloser⟩
termination_by tokens.length
decreasing_by rw [htokens, List.length_append]; omega

/-- Inside an open mapping the reader fails unless the tokens are pairs and then the bracket. -/
theorem fails_or_pairs (position : Nat) (tokens : List Token) (purpose : Purpose) (opening : Nat)
    (hbound : tokens.length ≤ bound) :
    Fails (run levels (.form (.mapping purpose opening .empty none :: opened)) position tokens) ∨
      ∃ pieces pairs rest, tokens = segments pieces ++ Bracket.curly.closer :: rest ∧
        values pieces = Value.keysAndValues pairs ∧
        (∀ piece ∈ pieces, Derives (levels - (opened.length + 1)) piece.segment piece.value) ∧
        ∀ piece ∈ pieces, piece.segment.head? ≠ some Bracket.curly.closer := by
  have hframe : (OpenForm.mapping purpose opening .empty none).closer?
      = some Bracket.curly.closer := rfl
  rcases fails_or_segments hread hlevels position tokens hframe hbound with
    hfails | ⟨pieces, rest, htokens, hpieces, hcloser⟩
  · exact .inl hfails
  · rcases pairs_or_waiting_key purpose opening .empty (values pieces) with
      ⟨pairs, hpairs⟩ | ⟨entries, key, hwaiting⟩
    · exact .inr ⟨pieces, pairs, rest, htokens, hpairs, hpieces, hcloser⟩
    · -- An odd number of forms leaves a key behind, and the bracket is refused.
      have hreads : ∀ piece ∈ pieces, Reads _ piece.segment piece.value := fun piece hpiece =>
        (hpieces piece hpiece).reads
      rw [htokens, run_segments hframe (by omega) pieces hreads hcloser, hwaiting, run_cons, feed,
        if_pos rfl]
      exact .inl ⟨_, rfl⟩

/-- Behind the metadata mark the reader fails unless a mapping and a form follow. -/
theorem fails_or_description (position : Nat) (tokens : List Token)
    (hbound : tokens.length ≤ bound) :
    Fails (run levels (.brace opened) position tokens) ∨
      BeginsWithForm (levels - opened.length) (metadataMark :: tokens) := by
  match tokens with
  | [] => exact .inl ⟨_, rfl⟩
  | token :: more =>
    rw [run_cons, feed]
    split
    · next hkind =>
      rw [List.length_cons] at hbound
      rcases fails_or_pairs hread hlevels (position + 1) more .metadata position (by omega) with
        hfails | ⟨pieces, pairs, rest, hmore, hpairs, hpieces, hcloser⟩
      · exact .inl hfails
      · have hreads : ∀ piece ∈ pieces, Reads _ piece.segment piece.value := fun piece hpiece =>
          (hpieces piece hpiece).reads
        have hlength := congrArg List.length hmore
        rw [List.length_append, List.length_cons] at hlength
        rw [resume, hmore, run_mapping .metadata position (by omega) hreads hcloser hpairs,
          closeMapping, resume]
        -- The mapping has been closed, and the form that it describes has to follow.
        rcases hread rest (.description (.ofList pairs) :: opened) _ (by omega)
          (begins_of_none rfl _) with hfails | ⟨segment, value, rest, hrest, hform⟩
        · exact .inl hfails
        · refine .inr ⟨_, _, rest, ?_, (Derives.description hpieces hcloser hpairs hform).mono ?_⟩
          · rw [Token.eq_opener_of_opensMapping hkind, hrest, List.cons_append, List.append_assoc,
              Bracket.enclose_append]
          · omega
    · exact .inl ⟨_, rfl⟩

end

theorem readsUpTo (bound : Nat) : ReadsUpTo levels bound := by
  -- Induction on a bound for the tokens: what a form begins with is used up before its parts.
  induction bound with
  | zero =>
    intro tokens opened position hbound _
    rw [List.length_eq_zero_iff.mp (Nat.le_zero.mp hbound)]
    exact .inl ⟨_, rfl⟩
  | succ bound ih =>
    intro tokens opened position hbound hbegins
    match tokens with
    | [] => exact .inl ⟨_, rfl⟩
    | token :: more =>
      rw [List.length_cons, Nat.add_le_add_iff_right] at hbound
      rw [run_cons, feed_of_begins hbegins]
      by_cases hlevels : opened.length < levels
      · have hlevel : levels - (opened.length + 1) + 1 ≤ levels - opened.length := by omega
        rw [enter_eq hlevels]
        cases hkind : token.kind with
        | opens shape =>
          have hframe : (OpenForm.sequence shape position []).closer? = some shape.bracket.closer :=
            rfl
          rcases fails_or_segments ih hlevels (position + 1) more hframe hbound with
            hfails | ⟨pieces, rest, hmore, hpieces, hcloser⟩
          · exact .inl hfails
          · refine .inr ⟨_, _, rest, ?_, (Derives.sequence shape hpieces hcloser).mono hlevel⟩
            rw [Token.eq_opener_of_opens hkind, hmore, Bracket.enclose_append]
        | opensMapping =>
          rcases fails_or_pairs ih hlevels (position + 1) more .literal position hbound with
            hfails | ⟨pieces, pairs, rest, hmore, hpairs, hpieces, hcloser⟩
          · exact .inl hfails
          · refine .inr ⟨_, _, rest, ?_, (Derives.mapping hpieces hcloser hpairs).mono hlevel⟩
            rw [Token.eq_opener_of_opensMapping hkind, hmore, Bracket.enclose_append]
        | abbreviates sigil =>
          rcases ih more (.abbreviation sigil :: opened) (position + 1) hbound
            (begins_of_none rfl _) with hfails | ⟨segment, value, rest, hmore, hform⟩
          · exact .inl hfails
          · refine .inr ⟨_, _, rest, ?_, (Derives.abbreviation sigil hform).mono hlevel⟩
            rw [Token.eq_token_of_abbreviates hkind, hmore, List.cons_append]
        | describes =>
          rw [Token.eq_metadataMark_of_describes hkind]
          exact fails_or_description ih hlevels (position + 1) more hbound
        | atom =>
          have htoken := Token.kind_eq_atom_iff.mp hkind
          cases hatom : Value.ofAtom? token with
          | none => exact .inl ⟨_, rfl⟩
          | some value =>
            exact .inr ⟨[token], value, more, rfl, (Derives.atom htoken hatom).mono hlevel⟩
      · -- No level is left for a form.
        rw [enter, if_pos (Nat.not_lt.mp hlevels)]
        exact .inl ⟨_, rfl⟩

/-! ## 2. Acceptance -/

theorem run_eq_ok_iff {tokens : List Token} {value : Value} {next : Nat} :
    run levels (.form []) position tokens = ⟨.ok value, next⟩ ↔
      ∃ segment rest, tokens = segment ++ rest ∧ next = position + segment.length ∧
        Derives levels segment value := by
  constructor
  · intro h
    rcases readsUpTo tokens.length tokens [] position (Nat.le_refl _) (begins_of_none rfl _) with
      hfails | ⟨segment, v, rest, htokens, hderives⟩
    · rcases hfails with ⟨error, herror⟩
      rw [h] at herror
      cases herror
    · have hderives : Derives levels segment v := hderives
      have hrun := hderives.reads levels position [] rest (by simp) (begins_of_none rfl _)
      rw [← htokens, h, finish, resume] at hrun
      cases hrun
      exact ⟨segment, rest, htokens, rfl, hderives⟩
  · rintro ⟨segment, rest, rfl, rfl, hderives⟩
    rw [hderives.reads levels position [] rest (by simp) (begins_of_none rfl _), finish, resume]

/-- No tokens begin with two segments, and no segment has two values, at any two levels. -/
theorem Derives.unique {levels' : Nat} {segment segment' rest rest' : List Token}
    {value value' : Value} (h : Derives levels segment value) (h' : Derives levels' segment' value')
    (htokens : segment ++ rest = segment' ++ rest') : segment = segment' ∧ value = value' := by
  have hrun : run (max levels levels') (.form []) 0 (segment ++ rest)
      = ⟨.ok value, segment.length⟩ :=
    run_eq_ok_iff.mpr ⟨segment, rest, rfl, by simp, h.mono (Nat.le_max_left _ _)⟩
  have hrun' : run (max levels levels') (.form []) 0 (segment ++ rest)
      = ⟨.ok value', segment'.length⟩ :=
    run_eq_ok_iff.mpr ⟨segment', rest', htokens, by simp, h'.mono (Nat.le_max_right _ _)⟩
  rcases Reading.mk.inj (hrun.symm.trans hrun') with ⟨hvalue, hlength⟩
  exact ⟨(List.append_inj htokens hlength).1, Except.ok.inj hvalue⟩

theorem readForm_eq_ok {cursor after : Cursor} {value : Value}
    (h : cursor.readForm = (.ok value, after)) :
    ∃ segment rest, cursor.tokens.drop cursor.position = segment ++ rest ∧
      Derives (maxDepth - cursor.depth) segment value := by
  have hresult : (run (maxDepth - cursor.depth) (.form []) cursor.position
      (cursor.tokens.drop cursor.position)).result = .ok value := congrArg Prod.fst h
  rcases run_eq_ok_iff.mp (congrArg (Reading.mk · _) hresult) with
    ⟨segment, rest, htokens, -, hderives⟩
  exact ⟨segment, rest, htokens, hderives⟩

theorem read_eq_ok_iff {text : Text} {value : Value} :
    read text = .ok value ↔
      ∃ segment rest, Token.tokenize text = segment ++ rest ∧ Derives maxDepth segment value := by
  constructor
  · intro h
    rcases run_eq_ok_iff.mp (congrArg (Reading.mk · _) h) with ⟨segment, rest, htokens, -, hderives⟩
    exact ⟨segment, rest, htokens, hderives⟩
  · rintro ⟨segment, rest, htokens, hderives⟩
    rw [read, run_eq_ok_iff.mpr ⟨segment, rest, htokens, rfl, hderives⟩]

/-! ## 3. Reading forms and deriving them -/

/-- From any cursor over any tokens, a form is read up to a position exactly if the grammar derives
its value from the tokens up to there, with the levels that the cursor has left.  No tokens begin
with two segments that are forms, and no segment has two values. -/
theorem readForm_iff_derives :
    (∀ (cursor : Cursor) (value : Value) (next : Nat),
      cursor.readForm = (.ok value, { cursor with position := next }) ↔
        ∃ segment rest, cursor.tokens.drop cursor.position = segment ++ rest ∧
          next = cursor.position + segment.length ∧
          Derives (maxDepth - cursor.depth) segment value) ∧
    ∀ (levels levels' : Nat) (segment segment' rest rest' : List Token) (value value' : Value),
      Derives levels segment value → Derives levels' segment' value' →
        segment ++ rest = segment' ++ rest' → segment = segment' ∧ value = value' := by
  refine ⟨fun cursor value next => ?_, fun _ _ _ _ _ _ _ _ h h' => h.unique h'⟩
  rw [← run_eq_ok_iff]
  constructor
  · intro h
    rw [Cursor.readForm] at h
    generalize run _ _ _ _ = reading at h ⊢
    rcases reading with ⟨result, position⟩
    cases h
    rfl
  · intro h
    rw [Cursor.readForm, h]

/-- `^{a )} (])` is read with three levels left: one for the mark, one for the list and the entries
of the mapping, and one for what is in the list. -/
theorem readForm_metadata_list :
    (∃ segment rest, [['^'], ['\x7b'], ['a'], [')'], ['\x7d'], ['('], [']'], [')'], ['b']]
        = segment ++ rest ∧ 8 = 0 + segment.length ∧
        Derives 3 segment (.call metadataName [.list [.symbol [']']],
          .mapping [(.symbol ['a'], .symbol [')'])]])) ∧
      Derives 1 [['('], [')']] (.list []) ∧ Derives maxDepth [['('], [')']] (.list []) ∧
      [['('], [')']] ++ [[')']] = [['('], [')']] ++ [[')']] ∧
      [['('], [')']] = [['('], [')']] ∧ Value.list [] = .list [] := by
  have hempty : ∀ levels, Derives (levels + 1) [['('], [')']] (.list []) := fun levels =>
    @Derives.sequence levels [] .list (by simp) (by simp)
  refine ⟨(readForm_iff_derives.1 ⟨[['^'], ['\x7b'], ['a'], [')'], ['\x7d'], ['('], [']'], [')'],
    ['b']], 0, 509⟩ _ 8).mp ?_, hempty 0, hempty 511, rfl,
    readForm_iff_derives.2 1 maxDepth _ _ [[')']] [[')']] _ _ (hempty 0) (hempty 511) rfl⟩
  rfl

end LispForms.Reader
