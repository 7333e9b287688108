import LispForms.Proofs.Reader.Standing

/-!
# Blame — what an error says of the tokens

A reading that fails has come to a place among the tokens and cannot go on with those behind it.
Which tokens its error names, and which marks, can be said of the place (`Place.Blames`), and no
other place among the tokens gives rise to another error.

Main statement: `read_error_blames`.
-/

namespace LispForms

def Token.markName? (token : Token) : Option Text := Token.markNames.lookup token

namespace Reader

/-- The names of the open forms that a mark has begun, outermost first. -/
def Place.names (place : Place) : List Text := place.begun.filterMap Token.markName?

/-- What the tokens at a place, none of them if it is the end, are to blame for, and in which
words. -/
inductive Place.Blames : Place → List Token → Text → Prop
  /-- There is no form behind a mark, or none at all. -/
  | noForm {opened : List Unfinished} (hlevel : opened.length < maxDepth)
      (hinner : innermost? opened = none) :
      Blames (.form opened) []
        ("no token at position ".toList ++ Text.decimal (openTokens opened).length)
  /-- There is no mapping behind a metadata mark. -/
  | noMapping {opened : List Unfinished} :
      Blames (.brace opened) []
        ("no token at position ".toList
          ++ Text.decimal (openTokens opened ++ [metadataMark]).length)
  /-- The innermost form is a list or vector, and nothing closes it. -/
  | unclosed {shape : Shape} {pieces : List Piece} {outer : List Unfinished} :
      Blames (.form (.sequence shape pieces :: outer)) []
        ("expected '".toList ++ shape.bracket.closer ++ "' to close the form at token ".toList
          ++ Text.decimal (openTokens outer).length ++ ": no token at position ".toList
          ++ Text.decimal (openTokens outer ++ shape.bracket.opener :: segments pieces).length)
  /-- The innermost form is a mapping, and nothing closes it. -/
  | unclosedMapping {purpose : Purpose} {pieces : List Piece} {outer : List Unfinished} :
      Blames (.form (.mapping purpose pieces :: outer)) []
        ("expected '\x7d' to close the mapping at token ".toList
          ++ Text.decimal (openTokens outer ++ leadOf purpose).length
          ++ ": no token at position ".toList
          ++ Text.decimal (openTokens outer ++ leadOf purpose
            ++ Bracket.curly.opener :: segments pieces).length)
  /-- The innermost form is a mapping, and is closed behind a key. -/
  | keyWithoutValue {purpose : Purpose} {pieces : List Piece} {outer : List Unfinished}
      {more : List Token} (hodd : pieces.length % 2 = 1) :
      Blames (.form (.mapping purpose pieces :: outer)) (Bracket.curly.closer :: more)
        ("mapping at token ".toList ++ Text.decimal (openTokens outer ++ leadOf purpose).length
          ++ " has a key without a value".toList)
  /-- A string does not end where its token ends. -/
  | malformedString {opened : List Unfinished} {token : Token} {more : List Token}
      (hlevel : opened.length < maxDepth) (hquote : Text.startsWithQuote token = true)
      (hliteral : Text.isStringLiteral token = false) :
      Blames (.form opened) (token :: more)
        ("unterminated or malformed string at token ".toList
          ++ Text.decimal (openTokens opened).length)
  /-- A form would have to begin, and there is no level for it. -/
  | tooDeep {opened : List Unfinished} {rest : List Token} (hlevel : opened.length = maxDepth)
      (hinner : ∀ bracket ∈ innermost? opened,
        ∃ token more, rest = token :: more ∧ token ≠ bracket.closer) :
      Blames (.form opened) rest
        ("form nested too deeply at token ".toList ++ Text.decimal (openTokens opened).length
          ++ " (limit 512)".toList)
  /-- Something else than a mapping stands behind a metadata mark. -/
  | noBrace {opened : List Unfinished} {token : Token} {more : List Token}
      (htoken : token ≠ Bracket.curly.opener) :
      Blames (.brace opened) (token :: more)
        ("expected '\x7b' at token ".toList
          ++ Text.decimal (openTokens opened ++ [metadataMark]).length ++ ", found ".toList
          ++ Text.quoted token)

variable {levels position : Nat} {opened : List Unfinished} {place : Place} {tokens : List Token}
  {state : ReadState} {error : ReadError}

/-! ## 1. Notes -/

theorem note?_foldl_push (frame : OpenForm) (vs : List Value) :
    (vs.foldl OpenForm.push frame).note? = frame.note? := by
  induction vs generalizing frame with
  | nil => rfl
  | cons v vs ih =>
    rw [List.foldl_cons, ih]
    cases frame with
    | mapping purpose _ _ key => cases key <;> cases purpose <;> rfl
    | _ => rfl

theorem Unfinished.note?_frame (u : Unfinished) (start : Nat) :
    (u.frame start).note? = (Token.markName? u.token).map noteOf := by
  cases u with
  | sequence shape =>
    rw [frame, note?_foldl_push]
    cases shape <;> rfl
  | mapping purpose =>
    rw [frame, note?_foldl_push]
    cases purpose <;> rfl
  | abbreviation sigil => cases sigil <;> rfl
  | description => rfl

theorem notes_frames (opened : List Unfinished) :
    (frames opened).reverse.filterMap OpenForm.note?
      = ((opened.reverse.map Unfinished.token).filterMap Token.markName?).map noteOf := by
  induction opened with
  | nil => rfl
  | cons inner outer ih =>
    simp only [frames, List.reverse_cons, List.filterMap_append, List.map_append, ih]
    congr 1
    simp only [List.filterMap_cons, List.map_cons, Unfinished.note?_frame]
    cases Token.markName? inner.token <;> rfl

/-- The notes that the reader has made are for the marks of the place. -/
theorem notes_state (place : Place) : place.state.notes = place.names.map noteOf := by
  cases place with
  | form opened => exact notes_frames opened
  | brace opened =>
    show (frames opened).reverse.filterMap OpenForm.note? ++ [noteOf metadataName] = _
    rw [notes_frames, Place.names, Place.begun, List.filterMap_append, List.map_append]
    rfl

/-- The words about each mark stand in front of the cause. -/
theorem detail_eq (names : List Text) (cause : Cause) :
    (ReadError.mk (names.map noteOf) cause).detail
      = (names.flatMap fun name => "in ".toList ++ name ++ ": ".toList) ++ cause.detail := by
  have hcolon : [':', ' '] = ": ".toList := by decide
  rw [ReadError.detail]
  induction names with
  | nil => rfl
  | cons name names ih =>
    rw [List.map_cons, List.foldr_cons, ih, List.flatMap_cons, noteOf, hcolon]
    simp only [List.append_assoc]

/-! ## 2. Where a reading stops -/

/-- A reading that fails has used some tokens, and fails with the next one or for want of one. -/
theorem exists_stop (h : (run levels state position tokens).result = .error error) :
    ∃ front rest after, tokens = front ++ rest ∧
      stateAfter levels state position front = some after ∧
      (rest = [] ∧ error = outOfTokens levels (position + front.length) after ∨
        ∃ token more, rest = token :: more ∧
          (feed levels (position + front.length) token after).error? = some error) := by
  -- The reading stops at the first token that ends it, or behind the last one.
  induction tokens generalizing state position with
  | nil => exact ⟨[], [], state, rfl, rfl, .inl ⟨rfl, (Except.error.inj h).symm⟩⟩
  | cons token tokens ih =>
    rw [run_cons] at h
    cases hfeed : feed levels position token state with
    | more next =>
      rw [hfeed] at h
      obtain ⟨front, rest, after, htokens, hafter, hstop⟩ := ih h
      refine ⟨token :: front, rest, after, by rw [htokens]; rfl, ?_, ?_⟩
      · rw [stateAfter, hfeed]
        exact hafter
      · rwa [List.length_cons, Nat.add_comm front.length, ← Nat.add_assoc]
    | done value => rw [hfeed] at h; cases h
    | refuse error' =>
      rw [hfeed] at h
      refine ⟨[], _, state, rfl, rfl, .inr ⟨token, tokens, rfl, ?_⟩⟩
      rw [← Except.error.inj h]
      exact congrArg Progress.error? hfeed
    | reject error' =>
      rw [hfeed] at h
      refine ⟨[], _, state, rfl, rfl, .inr ⟨token, tokens, rfl, ?_⟩⟩
      rw [← Except.error.inj h]
      exact congrArg Progress.error? hfeed

theorem notes_outOfTokens (levels position : Nat) (state : ReadState) :
    (outOfTokens levels position state).notes = state.notes := by
  cases state with
  | brace => rfl
  | form opened =>
    cases hclosing : closing? opened with
    | none =>
      rw [outOfTokens_of_none hclosing]
      split <;> rfl
    | some closer =>
      cases opened with
      | nil => cases hclosing
      | cons frame opened =>
        cases frame with
        | sequence => rfl
        | mapping => rfl
        | abbreviation => cases hclosing
        | description => cases hclosing

/-! ## 3. The words of a cause -/

theorem detail_unclosed_sequence (shape : Shape) (start position : Nat) :
    (Cause.unclosed shape.bracket start position).detail
      = "expected '".toList ++ shape.bracket.closer ++ "' to close the form at token ".toList
        ++ Text.decimal start ++ ": no token at position ".toList ++ Text.decimal position := by
  have hwords : "' to close the ".toList ++ "form".toList ++ " at token ".toList
      = "' to close the form at token ".toList := by rfl
  have hform : (if shape.bracket = .curly then "mapping" else "form") = "form" := by
    cases shape <;> rfl
  show "expected '".toList ++ shape.bracket.closer ++ "' to close the ".toList
      ++ (if shape.bracket = .curly then "mapping" else "form").toList ++ " at token ".toList
      ++ Text.decimal start ++ ": no token at position ".toList ++ Text.decimal position = _
  rw [hform, ← hwords]
  simp only [List.append_assoc]

theorem detail_unclosed_curly (start position : Nat) :
    (Cause.unclosed .curly start position).detail
      = "expected '\x7d' to close the mapping at token ".toList ++ Text.decimal start
        ++ ": no token at position ".toList ++ Text.decimal position := by
  have hwords : "expected '".toList ++ Bracket.curly.closer ++ "' to close the ".toList
        ++ "mapping".toList ++ " at token ".toList
      = "expected '\x7d' to close the mapping at token ".toList := by rfl
  rw [← hwords]
  rfl

theorem detail_tooDeep (position : Nat) :
    (Cause.tooDeep position).detail
      = "form nested too deeply at token ".toList ++ Text.decimal position
        ++ " (limit 512)".toList := by
  have hwords : " (limit ".toList ++ (Text.decimal maxDepth ++ [')']) = " (limit 512)".toList := by
    rfl
  rw [← hwords, ← List.append_assoc, ← List.append_assoc]
  rfl

/-- Only an open string is neither a number nor a string nor a symbol. -/
theorem isOpenString_of_ofAtom?_eq_none {token : Token} (h : Value.ofAtom? token = none) :
    Text.startsWithQuote token = true ∧ Text.isStringLiteral token = false := by
  unfold Value.ofAtom? at h
  split at h
  · cases h
  · split at h
    · next hquote =>
      split at h
      · cases h
      · next hliteral => exact ⟨hquote, Bool.eq_false_iff.mpr hliteral⟩
    · cases h

/-! ## 4. From the error to the place -/

/-- At the end of the tokens an open mapping is blamed, with or without a key that waits. -/
theorem cause_outOfTokens_mapping (purpose : Purpose) (pieces : List Piece)
    (outer : List Unfinished) :
    (outOfTokens levels position (.form (frames (.mapping purpose pieces :: outer)))).cause
      = .unclosed .curly (openTokens outer ++ leadOf purpose).length position := by
  rw [List.length_append]
  obtain ⟨entries, rfl | ⟨key, rfl⟩⟩ := exists_alternating pieces
  · rw [frames, frame_alternating]
    rfl
  · rw [frames, frame_alternating_concat]
    rfl

theorem blames_outOfTokens (h : place.Sound maxDepth) :
    place.Blames [] (outOfTokens maxDepth place.tokens.length place.state).cause.detail := by
  cases place with
  | brace opened => exact .noMapping
  | form opened =>
    have hlength : (frames opened).length = opened.length := length_frames opened
    -- If a bracket is open it is blamed, whether there is a level left or not.
    cases hinner : innermost? opened with
    | none =>
      have hclosing : closing? (frames opened) = none := by rw [closing?_frames, hinner]; rfl
      rw [Place.state, outOfTokens_of_none hclosing, hlength]
      split
      · next hlevel =>
        show Place.Blames _ [] (Cause.tooDeep _).detail
        rw [detail_tooDeep]
        exact .tooDeep (Nat.le_antisymm (Nested.length_le h) hlevel) (by simp [hinner])
      · next hlevel => exact .noForm (Nat.not_le.mp hlevel) hinner
    | some bracket =>
      cases opened with
      | nil => cases hinner
      | cons inner outer =>
        cases inner with
        | sequence shape pieces =>
          rw [Place.state, frames, frame_sequence, outOfTokens]
          show Place.Blames _ [] (Cause.unclosed _ _ _).detail
          rw [detail_unclosed_sequence]
          exact .unclosed
        | mapping purpose pieces =>
          show Place.Blames _ [] (Cause.detail (ReadError.cause (outOfTokens _ _ _)))
          rw [Place.tokens, Place.state, cause_outOfTokens_mapping, detail_unclosed_curly,
            openTokens, Unfinished.tokens, ← List.append_assoc]
          exact .unclosedMapping
        | abbreviation => cases hinner
        | description => cases hinner

theorem blames_enter {token : Token} {more : List Token} (h : Nested maxDepth opened)
    (hhead : ∀ bracket ∈ innermost? opened, token ≠ bracket.closer)
    (henter :
      (enter maxDepth (openTokens opened).length token (frames opened)).error? = some error) :
    (Place.form opened).Blames (token :: more) error.cause.detail ∧
      error.notes = (Place.form opened).state.notes := by
  have hlength : (frames opened).length = opened.length := length_frames opened
  by_cases hlevel : opened.length < maxDepth
  · have hlevels : (frames opened).length < maxDepth := by rwa [hlength]
    rw [enter_eq hlevels] at henter
    -- With a level left, nothing but an open string is refused.
    cases hkind : token.kind with
    | opens => simp [hkind, Progress.error?] at henter
    | opensMapping => simp [hkind, Progress.error?] at henter
    | abbreviates => simp [hkind, Progress.error?] at henter
    | describes => simp [hkind, Progress.error?] at henter
    | atom =>
      cases hatom : Value.ofAtom? token with
      | some value => simp [hkind, hatom, error?_finish] at henter
      | none =>
        simp only [hkind, hatom] at henter
        cases henter
        obtain ⟨hquote, hliteral⟩ := isOpenString_of_ofAtom?_eq_none hatom
        exact ⟨.malformedString hlevel hquote hliteral, rfl⟩
  · rw [enter, if_pos (by rw [hlength]; exact Nat.not_lt.mp hlevel)] at henter
    cases henter
    refine ⟨?_, rfl⟩
    show Place.Blames _ _ (Cause.tooDeep _).detail
    rw [detail_tooDeep]
    exact .tooDeep (Nat.le_antisymm h.length_le (Nat.not_lt.mp hlevel)) fun bracket hbracket =>
      ⟨token, more, rfl, hhead bracket hbracket⟩

theorem blames_feed {token : Token} {more : List Token} (h : place.Sound maxDepth)
    (hfeed : (feed maxDepth place.tokens.length token place.state).error? = some error) :
    place.Blames (token :: more) error.cause.detail ∧ error.notes = place.state.notes := by
  cases place with
  | brace opened =>
    rw [Place.state, feed] at hfeed
    split at hfeed
    · cases hfeed
    · next hkind =>
      cases hfeed
      refine ⟨.noBrace fun htoken => hkind ?_, rfl⟩
      rw [htoken]
      rfl
  | form opened =>
    by_cases hhead : ∀ bracket ∈ innermost? opened, token ≠ bracket.closer
    · rw [Place.state, feed_frames_of_ne hhead] at hfeed
      exact blames_enter h hhead hfeed
    · -- Of the closing brackets only that of a mapping is ever refused.
      cases opened with
      | nil => exact absurd (ne_closer_of_none rfl) hhead
      | cons inner outer =>
        cases inner with
        | sequence shape pieces =>
          have htoken : token = shape.bracket.closer := by
            simpa [innermost?, Unfinished.bracket?] using hhead
          rw [Place.state, frames, frame_sequence, feed, if_pos htoken, error?_finish] at hfeed
          cases hfeed
        | mapping purpose pieces =>
          have htoken : token = Bracket.curly.closer := by
            simpa [innermost?, Unfinished.bracket?] using hhead
          subst htoken
          obtain ⟨entries, rfl | ⟨key, rfl⟩⟩ := exists_alternating pieces
          · rw [Place.state, frames, frame_alternating, feed, if_pos rfl] at hfeed
            cases purpose with
            | literal => rw [closeMapping, error?_finish] at hfeed; cases hfeed
            | metadata => cases hfeed
          · have hodd : (alternating entries ++ [key]).length % 2 = 1 := by
              rw [List.length_append, length_alternating, List.length_singleton]
              omega
            rw [Place.state, frames, frame_alternating_concat, feed, if_pos rfl] at hfeed
            cases hfeed
            refine ⟨?_, ?_⟩
            · rw [← List.length_append]
              exact .keyWithoutValue hodd
            · rw [Place.state, frames, frame_alternating_concat]
              rfl
        | abbreviation => exact absurd (ne_closer_of_none rfl) hhead
        | description => exact absurd (ne_closer_of_none rfl) hhead

/-! ## 5. From the place to the error -/

theorem run_nil_result (state : ReadState) :
    (run levels state position []).result
      = .error ⟨state.notes, (outOfTokens levels position state).cause⟩ := by
  rw [run, ← notes_outOfTokens levels position state]

/-- What is to blame at a place makes the reader fail there, with these words. -/
theorem Place.Blames.run_place {rest : List Token} {words : Text} (h : place.Blames rest words) :
    ∃ cause : Cause, cause.detail = words ∧
      (run maxDepth place.state place.tokens.length rest).result
        = .error ⟨place.state.notes, cause⟩ := by
  cases h with
  | @noForm opened hlevel hinner =>
    have hclosing : closing? (frames opened) = none := by rw [closing?_frames, hinner]; rfl
    refine ⟨.noToken (openTokens opened).length, rfl, ?_⟩
    rw [Place.state, run, outOfTokens_of_none hclosing, length_frames,
      if_neg (Nat.not_le.mpr hlevel)]
    rfl
  | noMapping => exact ⟨.noToken _, rfl, rfl⟩
  | @unclosed shape pieces outer =>
    refine ⟨.unclosed shape.bracket (openTokens outer).length _, detail_unclosed_sequence _ _ _, ?_⟩
    rw [run_nil_result, Place.state, frames, frame_sequence]
    rfl
  | @unclosedMapping purpose pieces outer =>
    refine ⟨.unclosed .curly (openTokens outer ++ leadOf purpose).length _,
      detail_unclosed_curly _ _, ?_⟩
    rw [run_nil_result, Place.state, cause_outOfTokens_mapping, Place.tokens, openTokens,
      Unfinished.tokens, ← List.append_assoc]
  | @keyWithoutValue purpose pieces outer more hodd =>
    refine ⟨.keyWithoutValue (openTokens outer ++ leadOf purpose).length, rfl, ?_⟩
    obtain ⟨entries, rfl | ⟨key, rfl⟩⟩ := exists_alternating pieces
    · rw [length_alternating] at hodd
      omega
    · rw [Place.state, frames, frame_alternating_concat, run_cons, feed, if_pos rfl,
        List.length_append]
      rfl
  | @malformedString opened token more hlevel hquote hliteral =>
    refine ⟨.malformedString (openTokens opened).length, rfl, ?_⟩
    rw [run_openString ⟨hquote, hliteral⟩, Place.state, openStringCause, length_frames,
      if_neg (Nat.not_le.mpr hlevel)]
    rfl
  | @tooDeep opened rest hlevel hinner =>
    refine ⟨.tooDeep (openTokens opened).length, detail_tooDeep _, ?_⟩
    have hlevels : maxDepth ≤ (frames opened).length := by
      rw [length_frames]
      exact Nat.le_of_eq hlevel.symm
    cases hbracket : innermost? opened with
    | none =>
      have hclosing : closing? (frames opened) = none := by rw [closing?_frames, hbracket]; rfl
      rw [Place.state, run_of_tooDeep hlevels hclosing]
      rfl
    | some bracket =>
      obtain ⟨token, more, rfl, htoken⟩ := hinner bracket hbracket
      have hhead : ∀ other ∈ innermost? opened, token ≠ other.closer := by
        intro other hother
        cases hbracket.symm.trans hother
        exact htoken
      rw [Place.state, run_cons, feed_frames_of_ne hhead, enter, if_pos hlevels]
      rfl
  | @noBrace opened token more htoken =>
    refine ⟨.noMapping (openTokens opened ++ [metadataMark]).length token, rfl, ?_⟩
    have hkind : token.kind ≠ .opensMapping := fun hkind =>
      htoken (Token.eq_opener_of_opensMapping hkind)
    rw [Place.state, run_cons, feed, if_neg hkind]
    rfl

/-! ## 6. Errors and places -/

theorem exists_blames {tokens : List Token}
    (h : (run maxDepth (.form []) 0 tokens).result = .error error) :
    ∃ (place : Place) (rest : List Token), tokens = place.tokens ++ rest ∧
      place.Sound maxDepth ∧ place.Blames rest error.cause.detail ∧
      error.notes = place.names.map noteOf := by
  obtain ⟨front, rest, after, rfl, hafter, hstop⟩ := exists_stop h
  obtain ⟨place, hplace, rfl, rfl⟩ := exists_place hafter
  rw [Nat.zero_add] at hstop
  refine ⟨place, rest, rfl, hplace, ?_⟩
  rw [← notes_state]
  rcases hstop with ⟨rfl, rfl⟩ | ⟨token, more, rfl, hfeed⟩
  · exact ⟨blames_outOfTokens hplace, notes_outOfTokens _ _ _⟩
  · exact blames_feed hplace hfeed

end Reader

open Reader (Place)

/-- A text that is not read has tokens up to a place among open forms, and its error names what is
to blame there, behind the names of the marks that are open, outermost first.  No other place in
the text can be blamed for another error or other marks. -/
theorem read_error_blames :
    (∀ (text : Text) (error : ReadError), read text = .error error →
      ∃ (place : Place) (rest : List Token) (words : Text),
        Token.tokenize text = place.tokens ++ rest ∧ place.Sound maxDepth ∧
        place.Blames rest words ∧
        error.detail
          = (place.names.flatMap fun name => "in ".toList ++ name ++ ": ".toList) ++ words) ∧
    ∀ (text : Text) (place : Place) (rest : List Token) (words : Text),
      Token.tokenize text = place.tokens ++ rest → place.Sound maxDepth →
      place.Blames rest words →
        ∃ error : ReadError, read text = .error error ∧
          error.notes = place.names.map noteOf ∧ error.cause.detail = words := by
  refine ⟨fun text error h => ?_, fun text place rest words htokens hplace hblames => ?_⟩
  · obtain ⟨place, rest, htokens, hplace, hblames, hnotes⟩ := Reader.exists_blames h
    refine ⟨place, rest, _, htokens, hplace, hblames, ?_⟩
    rw [← Reader.detail_eq, ← hnotes]
  · obtain ⟨cause, hwords, hrun⟩ := hblames.run_place
    rw [← Reader.run_place hplace, ← htokens, Reader.notes_state] at hrun
    exact ⟨_, hrun, rfl, hwords⟩

/-- In `'(a` the list at token 1 is not closed, inside a quoted form. -/
theorem read_error_blames_quoted_list :
    (∃ (place : Place) (rest : List Token) (words : Text),
      Token.tokenize "'(a".toList = place.tokens ++ rest ∧ place.Sound maxDepth ∧
      place.Blames rest words ∧
      "in quote: expected ')' to close the form at token 1: no token at position 3".toList
        = (place.names.flatMap fun name => "in ".toList ++ name ++ ": ".toList) ++ words) ∧
    ∃ error : ReadError, read "'(a".toList = .error error ∧ error.notes = ["in quote".toList] ∧
      error.cause.detail
        = "expected ')' to close the form at token 1: no token at position 3".toList := by
  have hread : read "'(a".toList
      = .error ⟨["in quote".toList], .unclosed Shape.list.bracket 1 3⟩ := by rfl
  have hletter : Reader.Derives 510 [['a']] (.symbol ['a']) :=
    .symbol (by decide) (by decide) (by decide)
  let place : Place :=
    .form [.sequence .list [⟨[['a']], .symbol ['a']⟩], .abbreviation .quote]
  have hplace : place.Sound maxDepth :=
    ⟨by decide, (Reader.row_nil 510 _).concat hletter (by decide), by decide, trivial, trivial⟩
  have hdetail : (ReadError.mk ["in quote".toList] (.unclosed Shape.list.bracket 1 3)).detail
      = "in quote: expected ')' to close the form at token 1: no token at position 3".toList := by
    rfl
  exact ⟨hdetail ▸ read_error_blames.1 _ _ hread,
    read_error_blames.2 _ place [] _ rfl hplace .unclosed⟩

end LispForms
