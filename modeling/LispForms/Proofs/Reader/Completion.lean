import LispForms.Proofs.Reader.Depth
import LispForms.Proofs.Reader.Standing

/-!
# Completion — tokens that can still become a form

Tokens that come to a place among open forms are completed from the inside out: what each form still
wants is put behind it, a letter where there has to be a form, and the closing bracket.  A letter
needs a level.  A reading that wants a token has one left for it, except behind a metadata mark that
has begun a form at the last level: there the mapping can still be read, but not the form after it.

Main statement: `readForm_completes_iff`.
-/

namespace LispForms.Reader

open Cursor (ofTokens readForm_eq_iff)

variable {levels position budget : Nat} {opened : List Unfinished} {place : Place}
  {u : Unfinished} {tokens segment : List Token} {value : Value} {error : ReadError}

/-! ## 1. What an open form still wants -/

/-- A letter is a form wherever there is a level for it, and closes nothing. -/
theorem exists_letter (hbudget : 0 < budget) :
    ∃ name, Derives budget [['a']] name ∧
      ∀ bracket : Bracket, [['a']].head? ≠ some bracket.closer := by
  rw [← Nat.sub_add_cancel hbudget]
  exact ⟨_, derives_letter _, fun bracket => by cases bracket <;> decide⟩

/-- Keys and values in a row are brought to an end by at most one letter. -/
theorem Row.exists_paired {pieces : List Piece} (h : Row budget .curly pieces) :
    ∃ entries more, Row budget .curly (alternating entries) ∧
      segments (alternating entries) = segments pieces ++ more := by
  obtain ⟨entries, rfl | ⟨key, rfl⟩⟩ := Reader.exists_alternating pieces
  · exact ⟨entries, [], h, (List.append_nil _).symm⟩
  · have hkey := h.derives key (List.mem_append_right _ (List.mem_singleton_self key))
    obtain ⟨name, hletter, hhead⟩ := exists_letter hkey.levels_pos
    have hentries : alternating (entries ++ [(key, ⟨[['a']], name⟩)])
        = alternating entries ++ [key] ++ [⟨[['a']], name⟩] := by
      simp [alternating]
    refine ⟨entries ++ [(key, ⟨[['a']], name⟩)], [['a']], ?_, ?_⟩
    · rw [hentries]
      exact h.concat hletter (hhead _)
    · rw [hentries, segments_concat]

/-- An open form can be brought to an end.  Where no level is left inside, that is a form which a
bracket closes and nothing follows. -/
theorem Unfinished.Sound.exists_end (h : u.Sound budget)
    (hbudget : 0 < budget ∨ u.bracket? ≠ none ∧ u.token ≠ metadataMark) :
    ∃ more whole, Derives (budget + 1) (u.tokens ++ more) whole := by
  cases u with
  | sequence shape pieces =>
    exact ⟨[shape.bracket.closer], _, .sequence shape (Row.derives h) (Row.head?_ne h)⟩
  | mapping purpose pieces =>
    obtain ⟨entries, more, hrow, hsegments⟩ := Row.exists_paired h
    cases purpose with
    | literal =>
      refine ⟨more ++ [Bracket.curly.closer], (Mapping.ofList (denoted entries)).toValue, ?_⟩
      have hform := Derives.mapping hrow.derives hrow.head?_ne (values_alternating entries)
      rw [hsegments, Bracket.enclose, List.append_assoc] at hform
      exact hform
    | metadata =>
      -- Behind the mapping there has to be a form, and the letter will do.
      have hlevel : 0 < budget := hbudget.resolve_right fun hmark => hmark.2 rfl
      obtain ⟨name, hletter, -⟩ := exists_letter hlevel
      have hform := Derives.description hrow.derives hrow.head?_ne (values_alternating entries)
        hletter
      have htokens :
          metadataMark :: (Bracket.curly.enclose (segments (alternating entries)) ++ [['a']])
            = (mapping .metadata pieces).tokens ++ (more ++ [Bracket.curly.closer, ['a']]) := by
        rw [hsegments, Bracket.enclose, Unfinished.tokens]
        simp [leadOf]
      exact ⟨more ++ [Bracket.curly.closer, ['a']], _, htokens ▸ hform⟩
  | abbreviation | description =>
    obtain ⟨name, hletter, -⟩ := exists_letter (hbudget.resolve_right fun hmark => hmark.1 rfl)
    obtain ⟨whole, hwhole, -⟩ := Unfinished.Sound.exists_whole h rfl hletter
    exact ⟨[['a']], whole, hwhole⟩

/-! ## 2. Open forms around a whole one -/

/-- Around a whole form there is a level for each open one, so that all of them can be brought to an
end, the innermost first. -/
theorem exists_completion (h : Nested levels opened)
    (hform : Derives (levels - opened.length) segment value)
    (hhead : ∀ bracket ∈ innermost? opened, segment.head? ≠ some bracket.closer) :
    ∃ more whole, Derives levels (openTokens opened ++ segment ++ more) whole := by
  induction opened generalizing segment value with
  | nil => exact ⟨[], value, by simpa [openTokens] using hform⟩
  | cons inner outer ih =>
    obtain ⟨hlevel, hinner, houter⟩ := h
    obtain ⟨more, whole, hwhole⟩ : ∃ more whole,
        Derives (levels - (outer.length + 1) + 1) (inner.tokens ++ (segment ++ more)) whole := by
      cases hbracket : inner.bracket? with
      | some bracket =>
        have hadd := hinner.add hbracket hform (hhead bracket hbracket)
        obtain ⟨more, whole, hwhole⟩ := hadd.exists_end (.inl hform.levels_pos)
        rw [Unfinished.tokens_add hbracket, List.append_assoc] at hwhole
        exact ⟨more, whole, hwhole⟩
      | none =>
        obtain ⟨whole, hwhole, -⟩ := hinner.exists_whole hbracket hform
        exact ⟨[], whole, by rwa [List.append_nil]⟩
    rw [show levels - (outer.length + 1) + 1 = levels - outer.length by omega] at hwhole
    obtain ⟨last, result, hresult⟩ :=
      ih houter hwhole fun bracket _ => inner.head?_tokens_append_ne (segment ++ more) bracket
    refine ⟨more ++ last, result, ?_⟩
    simpa only [openTokens, List.append_assoc] using hresult

theorem exists_completion_of_end (h : Nested levels (u :: opened))
    (hlevel : opened.length + 1 < levels ∨ u.bracket? ≠ none ∧ u.token ≠ metadataMark) :
    ∃ more whole, Derives levels (openTokens (u :: opened) ++ more) whole := by
  obtain ⟨hopened, hu, houter⟩ := h
  have hbudget : 0 < levels - (opened.length + 1) ∨ u.bracket? ≠ none ∧ u.token ≠ metadataMark :=
    hlevel.imp_left Nat.sub_pos_of_lt
  obtain ⟨more, whole, hwhole⟩ := hu.exists_end hbudget
  rw [show levels - (opened.length + 1) + 1 = levels - opened.length by omega] at hwhole
  obtain ⟨last, result, hresult⟩ :=
    exists_completion houter hwhole fun bracket _ => u.head?_tokens_append_ne more bracket
  refine ⟨more ++ last, result, ?_⟩
  simpa only [openTokens, List.append_assoc] using hresult

/-! ## 3. A metadata mark at the last level -/

/-- The mapping that describes the form at the last level is read, but not the form. -/
theorem fails_metadata {frames : List OpenForm} (hlevels : levels ≤ frames.length + 1)
    (opening : Nat) (entries : Mapping) (key : Option Value) (rest : List Token) :
    Fails
      (run levels (.form (.mapping .metadata opening entries key :: frames)) position rest) := by
  cases rest with
  | nil => exact ⟨_, rfl⟩
  | cons token rest =>
    rw [run_cons, feed]
    split
    · cases key with
      | some key => exact ⟨_, rfl⟩
      | none =>
        rw [closeMapping, resume, run_of_tooDeep hlevels rfl]
        exact ⟨_, rfl⟩
    · have hdeep : levels ≤ (OpenForm.mapping .metadata opening entries key :: frames).length :=
        hlevels
      rw [enter, if_pos hdeep]
      exact ⟨_, rfl⟩

theorem fails_brace {frames : List OpenForm} (hlevels : levels ≤ frames.length + 1)
    (rest : List Token) : Fails (run levels (.brace frames) position rest) := by
  cases rest with
  | nil => exact ⟨_, rfl⟩
  | cons token rest =>
    rw [run_cons, feed]
    split
    · exact fails_metadata hlevels _ _ _ rest
    · exact ⟨_, rfl⟩

theorem exists_frame_mapping (purpose : Purpose) (pieces : List Piece) (start : Nat) :
    ∃ entries key, (Unfinished.mapping purpose pieces).frame start
      = .mapping purpose (start + (leadOf purpose).length) entries key := by
  obtain ⟨entries, rfl | ⟨key, rfl⟩⟩ := Reader.exists_alternating pieces
  · exact ⟨_, _, frame_alternating purpose entries start⟩
  · exact ⟨_, _, frame_alternating_concat purpose entries key start⟩

theorem Unfinished.cases_of_token_eq (h : u.token = metadataMark) :
    (∃ pieces, u = .mapping .metadata pieces) ∨ ∃ entries, u = .description entries := by
  cases u with
  | sequence shape => cases shape <;> cases h
  | mapping purpose pieces =>
    cases purpose with
    | literal => cases h
    | metadata => exact .inl ⟨pieces, rfl⟩
  | abbreviation sigil => cases sigil <;> cases h
  | description entries => exact .inr ⟨entries, rfl⟩

theorem Place.begun_concat (inner : Unfinished) (outer : List Unfinished) :
    (Place.form (inner :: outer)).begun = (Place.form outer).begun ++ [inner.token] := by
  rw [begun, begun, List.reverse_cons, List.map_append]
  rfl

theorem Place.length_begun_form (opened : List Unfinished) :
    (Place.form opened).begun.length = opened.length := by
  rw [begun, List.length_map, List.length_reverse]

/-- No continuation is read once a metadata mark has begun a form at the last level. -/
theorem fails_of_begun (h : place.Sound (levels + 1))
    (hmark : place.begun[levels]? = some metadataMark) (rest : List Token) :
    Fails (run (levels + 1) place.state position rest) := by
  have hlength : levels < place.begun.length := (List.getElem?_eq_some_iff.mp hmark).1
  cases place with
  | brace opened =>
    refine fails_brace ?_ rest
    rw [length_frames]
    simpa [Place.begun, Nat.lt_succ_iff] using hlength
  | form opened =>
    cases opened with
    | nil => exact absurd hlength (Nat.not_lt_zero _)
    | cons inner outer =>
      rw [Place.length_begun_form] at hlength
      -- The mark has begun the innermost form, as there is no level below it.
      have hlevel : outer.length = levels := by
        have hle := Nested.length_le h
        rw [List.length_cons] at hle hlength
        omega
      subst hlevel
      rw [Place.begun_concat, ← Place.length_begun_form outer, List.getElem?_concat_length] at hmark
      have hlevels : outer.length + 1 ≤ (frames outer).length + 1 :=
        Nat.le_of_eq (by rw [length_frames])
      rw [Place.state, frames]
      rcases Unfinished.cases_of_token_eq (Option.some.inj hmark) with
        ⟨pieces, rfl⟩ | ⟨entries, rfl⟩
      · obtain ⟨entries, key, hframe⟩ :=
          exists_frame_mapping .metadata pieces (openTokens outer).length
        rw [hframe]
        exact fails_metadata hlevels _ _ _ rest
      · rw [Unfinished.frame, run_of_tooDeep hlevels rfl]
        exact ⟨_, rfl⟩

/-! ## 4. Tokens that want more -/

/-- An error that more tokens can mend is for want of the next one. -/
theorem missing?_of_run_append {more : List Token}
    (h : (run levels (.form []) 0 tokens).result = .error error)
    (hmore : (run levels (.form []) 0 (tokens ++ more)).result = .ok value) :
    error.cause.missing? = some tokens.length := by
  have hrun := congrArg (Reading.mk · (run levels (.form []) 0 tokens).position) h
  cases hmissing : error.cause.missing? with
  | none =>
    rw [run_append_of_missing? hrun hmissing] at hmore
    cases hmore
  | some wanted => rw [(position_of_missing? hrun hmissing).1, Nat.zero_add]

/-- A reading that wants a token has come to a place, and there is a level for the token. -/
theorem exists_place_of_missing? {wanted : Nat}
    (h : (run levels (.form []) 0 tokens).result = .error error)
    (hmissing : error.cause.missing? = some wanted) :
    ∃ place : Place, place.Sound levels ∧ place.tokens = tokens ∧
      ∀ opened, place = .form opened → opened.length < levels ∨ innermost? opened ≠ none := by
  cases hafter : stateAfter levels (.form []) 0 tokens with
  | none =>
    rw [(run_of_none hafter).2 error h] at hmissing
    cases hmissing
  | some state =>
    obtain ⟨place, hplace, htokens, rfl⟩ := exists_place hafter
    refine ⟨place, hplace, htokens, ?_⟩
    rintro opened rfl
    cases hinner : innermost? opened with
    | some bracket => exact .inr (by simp)
    | none =>
      have hclosing : closing? (frames opened) = none := by rw [closing?_frames, hinner]; rfl
      rw [run_of_some hafter, Place.state, outOfTokens_of_none hclosing, length_frames] at h
      split at h
      · cases h
        cases hmissing
      · next hlevel => exact .inl (Nat.not_le.mp hlevel)

/-- Where a token is wanted, what comes can make the tokens a form, unless a metadata mark has begun
one at the last level. -/
theorem exists_derives_append (h : place.Sound (levels + 1))
    (hwants : ∀ opened, place = .form opened →
      opened.length < levels + 1 ∨ innermost? opened ≠ none)
    (hmark : place.begun[levels]? ≠ some metadataMark) :
    ∃ more value, Derives (levels + 1) (place.tokens ++ more) value := by
  cases place with
  | brace opened =>
    obtain ⟨hnested, hlevel⟩ := h
    -- The mark that has just been read is itself not at the last level.
    have hbelow : opened.length < levels := by
      apply Nat.lt_of_le_of_ne (Nat.le_of_lt_succ hlevel)
      rintro rfl
      apply hmark
      rw [Place.begun, ← List.length_reverse, ← List.length_map (f := Unfinished.token),
        List.getElem?_concat_length]
    have hbraces : Nested (levels + 1) (.mapping .metadata [] :: opened) :=
      ⟨hlevel, row_nil _ _, hnested⟩
    obtain ⟨more, value, hvalue⟩ :=
      exists_completion_of_end hbraces (.inl (Nat.succ_lt_succ hbelow))
    exact ⟨Bracket.curly.opener :: more, value, by
      simpa [Place.tokens, openTokens, Unfinished.tokens, leadOf, segments] using hvalue⟩
  | form opened =>
    cases opened with
    | nil =>
      obtain ⟨name, hletter, -⟩ := exists_letter (Nat.succ_pos levels)
      exact ⟨[['a']], name, hletter⟩
    | cons u outer =>
      apply exists_completion_of_end h
      rcases Nat.lt_or_eq_of_le h.1 with hlevel | hlevel
      · exact .inl hlevel
      · -- At the last level a bracket has begun the form, and nothing need follow it.
        have hlength : outer.length = levels := Nat.succ.inj hlevel
        subst hlength
        refine .inr ⟨(hwants _ rfl).resolve_left (Nat.lt_irrefl _), fun htoken => hmark ?_⟩
        rw [Place.begun_concat, ← Place.length_begun_form outer, List.getElem?_concat_length,
          htoken]

/-- A reading that fails for want of the next token has come to a place among open forms.  When a
reading has failed, there are more tokens that make it succeed if it has failed so and no metadata
mark has begun the form that is open at the last of the 512 levels; and only then. -/
theorem readForm_completes_iff (tokens : List Token) (error : ReadError) (after : Cursor)
    (h : (ofTokens tokens).readForm = (.error error, after)) :
    (error.cause.missing? = some tokens.length →
      ∃ place : Place, place.Sound maxDepth ∧ place.tokens = tokens) ∧
    ((∃ more value next, (ofTokens (tokens ++ more)).readForm = (.ok value, next)) ↔
      error.cause.missing? = some tokens.length ∧
        ∀ place : Place, place.Sound maxDepth → place.tokens = tokens →
          place.begun[511]? ≠ some metadataMark) := by
  have herror : (run maxDepth (.form []) 0 tokens).result = .error error := congrArg Prod.fst h
  refine ⟨fun hmissing => ?_, ?_, ?_⟩
  · obtain ⟨place, hplace, htokens, -⟩ := exists_place_of_missing? herror hmissing
    exact ⟨place, hplace, htokens⟩
  · rintro ⟨more, value, next, hmore⟩
    have hread : (run maxDepth (.form []) 0 (tokens ++ more)).result = .ok value :=
      congrArg Prod.fst hmore
    refine ⟨missing?_of_run_append herror hread, ?_⟩
    rintro place hplace rfl hmark
    have hfails : Fails (run maxDepth place.state place.tokens.length more) :=
      fails_of_begun hplace hmark more
    obtain ⟨other, hother⟩ := hfails
    rw [run_place hplace, hother] at hread
    cases hread
  · rintro ⟨hmissing, hmark⟩
    obtain ⟨place, hplace, rfl, hwants⟩ := exists_place_of_missing? herror hmissing
    obtain ⟨more, value, hvalue⟩ :=
      exists_derives_append hplace hwants (hmark place hplace rfl)
    refine ⟨more, value, _, readForm_eq_iff.mpr (run_eq_ok_iff.mpr ⟨_, [], ?_, rfl, hvalue⟩)⟩
    exact (List.append_nil _).symm

/-- `(a` wants more, as there is more that makes it a list. -/
theorem readForm_completes_list :
    (ofTokens [['('], ['a']]).readForm
      = (.error ⟨[], .unclosed .round 0 2⟩, ⟨[['('], ['a']], 2, 0⟩) ∧
    (ofTokens [['('], ['a'], [')']]).readForm
      = (.ok (.list [.symbol ['a']]), ⟨[['('], ['a'], [')']], 3, 0⟩) ∧
    ∀ place : Place, place.Sound maxDepth → place.tokens = [['('], ['a']] →
      place.begun[511]? ≠ some metadataMark := by
  have hopen : (ofTokens [['('], ['a']]).readForm
      = (.error ⟨[], .unclosed .round 0 2⟩, ⟨[['('], ['a']], 2, 0⟩) := by rfl
  have hclosed : (ofTokens [['('], ['a'], [')']]).readForm
      = (.ok (.list [.symbol ['a']]), ⟨[['('], ['a'], [')']], 3, 0⟩) := by rfl
  have hcompletes := (readForm_completes_iff _ _ _ hopen).2.mp ⟨[[')']], _, _, hclosed⟩
  exact ⟨hopen, hclosed, hcompletes.2⟩

end LispForms.Reader
