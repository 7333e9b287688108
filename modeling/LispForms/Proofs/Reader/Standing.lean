import LispForms.Proofs.Reader.Place

/-!
# Standing — wherever the reader stands there is a place

One step for each token: a token that does not end the reading leaves the tokens at a place again.
A bracket or a mark opens one more form there, and a form that has been finished goes into the
innermost open one, which it may finish as well.

Main statement: `exists_place`.
-/

namespace LispForms.Reader

variable {levels position : Nat} {opened : List Unfinished} {place : Place} {token : Token}

/-! ## 1. One more form inside -/

theorem frame_sequence (shape : Shape) (pieces : List Piece) (start : Nat) :
    (Unfinished.sequence shape pieces).frame start
      = .sequence shape start (values pieces).reverse := by
  rw [Unfinished.frame, foldl_push_sequence, List.append_nil]

theorem frame_alternating (purpose : Purpose) (entries : List (Piece × Piece)) (start : Nat) :
    (Unfinished.mapping purpose (alternating entries)).frame start
      = .mapping purpose (start + (leadOf purpose).length) (.ofList (denoted entries)) none := by
  rw [Unfinished.frame, values_alternating, foldl_push_mapping]
  rfl

theorem frame_alternating_concat (purpose : Purpose) (entries : List (Piece × Piece)) (key : Piece)
    (start : Nat) :
    (Unfinished.mapping purpose (alternating entries ++ [key])).frame start
      = .mapping purpose (start + (leadOf purpose).length) (.ofList (denoted entries))
          (some key.value) := by
  rw [Unfinished.frame, values_concat, List.foldl_append, values_alternating, foldl_push_mapping]
  rfl

/-- A form inside brackets with one more whole form inside. -/
def Unfinished.add (piece : Piece) : Unfinished → Unfinished
  | .sequence shape pieces => .sequence shape (pieces ++ [piece])
  | .mapping purpose pieces => .mapping purpose (pieces ++ [piece])
  | .abbreviation sigil => .abbreviation sigil
  | .description entries => .description entries

section

variable {u : Unfinished} {bracket : Bracket} {budget : Nat} {segment : List Token} {value : Value}

theorem Unfinished.tokens_add (hbracket : u.bracket? = some bracket) :
    (u.add ⟨segment, value⟩).tokens = u.tokens ++ segment := by
  cases u with
  | sequence => rw [add, tokens, tokens, segments_concat, List.cons_append]
  | mapping =>
    rw [add, tokens, tokens, segments_concat, List.append_assoc, List.cons_append]
  | abbreviation => cases hbracket
  | description => cases hbracket

theorem Unfinished.frame_add (hbracket : u.bracket? = some bracket) (start : Nat) :
    (u.add ⟨segment, value⟩).frame start = (u.frame start).push value := by
  cases u with
  | sequence => rw [add, frame, frame, values_concat, List.foldl_append]; rfl
  | mapping => rw [add, frame, frame, values_concat, List.foldl_append]; rfl
  | abbreviation => cases hbracket
  | description => cases hbracket

theorem Unfinished.Sound.add (h : u.Sound budget) (hbracket : u.bracket? = some bracket)
    (hform : Derives budget segment value) (hhead : segment.head? ≠ some bracket.closer) :
    (u.add ⟨segment, value⟩).Sound budget := by
  cases u with
  | sequence =>
    cases hbracket
    exact Row.concat h hform hhead
  | mapping =>
    cases hbracket
    exact Row.concat h hform hhead
  | abbreviation => cases hbracket
  | description => cases hbracket

/-- The form behind a mark makes a whole form with it. -/
theorem Unfinished.Sound.exists_whole (h : u.Sound budget) (hbracket : u.bracket? = none)
    (hform : Derives budget segment value) :
    ∃ whole, Derives (budget + 1) (u.tokens ++ segment) whole ∧
      ∀ start frames, finish value (u.frame start :: frames) = finish whole frames := by
  cases u with
  | sequence => cases hbracket
  | mapping => cases hbracket
  | abbreviation sigil => exact ⟨_, .abbreviation sigil hform, fun _ _ => rfl⟩
  | description entries =>
    exact ⟨_, .description h.derives h.head?_ne (values_alternating entries) hform, fun _ _ => rfl⟩

end

section Steps

variable {segment : List Token} {value : Value} {state : ReadState}

/-- A form that has been finished goes into the innermost open one, and finishes that too if it is a
mark's; where that leaves forms open, the tokens have come to a place. -/
theorem exists_place_of_finish (h : Nested levels opened)
    (hform : Derives (levels - opened.length) segment value)
    (hhead : ∀ bracket ∈ innermost? opened, segment.head? ≠ some bracket.closer)
    (hfinish : finish value (frames opened) = .more state) :
    ∃ place : Place, place.Sound levels ∧ place.tokens = openTokens opened ++ segment ∧
      place.state = state := by
  -- A mark's form is whole with the form behind it, and goes on to the one around it in turn.
  induction opened generalizing segment value with
  | nil => cases hfinish
  | cons inner outer ih =>
    obtain ⟨hlevel, hinner, houter⟩ := h
    cases hbracket : inner.bracket? with
    | some bracket =>
      have hclosed : (inner.frame (openTokens outer).length).closer? = some bracket.closer := by
        rw [inner.closer?_frame, hbracket]
        rfl
      rw [frames, finish_of_closer? hclosed] at hfinish
      refine ⟨.form (inner.add ⟨segment, value⟩ :: outer),
        ⟨hlevel, hinner.add hbracket hform (hhead bracket hbracket), houter⟩, ?_, ?_⟩
      · rw [Place.tokens, openTokens, Unfinished.tokens_add hbracket, openTokens, List.append_assoc]
      · rw [Place.state, frames, Unfinished.frame_add hbracket, Progress.more.inj hfinish]
    | none =>
      obtain ⟨whole, hwhole, hsame⟩ := hinner.exists_whole hbracket hform
      rw [show levels - (outer.length + 1) + 1 = levels - outer.length by omega] at hwhole
      rw [frames, hsame] at hfinish
      obtain ⟨place, hplace, htokens, hstate⟩ :=
        ih houter hwhole (fun bracket _ => inner.head?_tokens_append_ne segment bracket) hfinish
      exact ⟨place, hplace, by rw [htokens, openTokens, List.append_assoc], hstate⟩

/-- The token that begins a form brings the tokens to the next place. -/
theorem exists_place_of_enter (h : Nested levels opened)
    (hhead : ∀ bracket ∈ innermost? opened, token ≠ bracket.closer)
    (henter : enter levels (openTokens opened).length token (frames opened) = .more state) :
    ∃ place : Place, place.Sound levels ∧ place.tokens = openTokens opened ++ [token] ∧
      place.state = state := by
  by_cases hlevel : opened.length < levels
  · have hlevels : (frames opened).length < levels := by rwa [length_frames]
    rw [enter_eq hlevels] at henter
    cases hkind : token.kind with
    | opens shape =>
      rw [hkind] at henter
      refine ⟨.form (.sequence shape [] :: opened), ⟨hlevel, row_nil _ _, h⟩, ?_,
        Progress.more.inj henter⟩
      rw [Token.eq_opener_of_opens hkind]
      rfl
    | opensMapping =>
      rw [hkind] at henter
      refine ⟨.form (.mapping .literal [] :: opened), ⟨hlevel, row_nil _ _, h⟩, ?_,
        Progress.more.inj henter⟩
      rw [Token.eq_opener_of_opensMapping hkind]
      rfl
    | abbreviates sigil =>
      rw [hkind] at henter
      refine ⟨.form (.abbreviation sigil :: opened), ⟨hlevel, trivial, h⟩, ?_,
        Progress.more.inj henter⟩
      rw [Token.eq_token_of_abbreviates hkind]
      rfl
    | describes =>
      rw [hkind] at henter
      refine ⟨.brace opened, ⟨h, hlevel⟩, ?_, Progress.more.inj henter⟩
      rw [Token.eq_metadataMark_of_describes hkind]
      rfl
    | atom =>
      cases hatom : Value.ofAtom? token with
      | none =>
        simp only [hkind, hatom] at henter
        cases henter
      | some value =>
        simp only [hkind, hatom] at henter
        have hform : Derives (levels - opened.length) [token] value := by
          rw [show levels - opened.length = levels - opened.length - 1 + 1 by omega]
          exact .atom (Token.kind_eq_atom_iff.mp hkind) hatom
        exact exists_place_of_finish h hform
          (fun bracket hbracket heq => hhead bracket hbracket (Option.some.inj heq)) henter
  · rw [enter, if_pos (by rw [length_frames]; exact Nat.not_lt.mp hlevel)] at henter
    cases henter

theorem exists_place_of_close_sequence {shape : Shape} {pieces : List Piece}
    (h : Nested levels (.sequence shape pieces :: opened))
    (hfeed : feed levels position shape.bracket.closer
      (.form (frames (.sequence shape pieces :: opened))) = .more state) :
    ∃ place : Place, place.Sound levels ∧
      place.tokens = openTokens (.sequence shape pieces :: opened) ++ [shape.bracket.closer] ∧
      place.state = state := by
  obtain ⟨hlevel, hrow, houter⟩ := h
  have hform := Derives.sequence shape (Row.derives hrow) (Row.head?_ne hrow)
  rw [show levels - (opened.length + 1) + 1 = levels - opened.length by omega] at hform
  have hhead : ∀ bracket ∈ innermost? opened,
      (shape.bracket.enclose (segments pieces)).head? ≠ some bracket.closer := fun bracket _ =>
    Unfinished.head?_tokens_append_ne (.sequence shape pieces) [shape.bracket.closer] bracket
  rw [frames, frame_sequence, feed, if_pos rfl, List.reverse_reverse] at hfeed
  obtain ⟨place, hplace, htokens, hstate⟩ := exists_place_of_finish houter hform hhead hfeed
  refine ⟨place, hplace, ?_, hstate⟩
  rw [htokens, openTokens, List.append_assoc]
  rfl

/-- A mapping is closed only behind a value. -/
theorem exists_place_of_close_mapping {purpose : Purpose} {pieces : List Piece}
    (h : Nested levels (.mapping purpose pieces :: opened))
    (hfeed : feed levels position Bracket.curly.closer
      (.form (frames (.mapping purpose pieces :: opened))) = .more state) :
    ∃ place : Place, place.Sound levels ∧
      place.tokens = openTokens (.mapping purpose pieces :: opened) ++ [Bracket.curly.closer] ∧
      place.state = state := by
  obtain ⟨hlevel, hrow, houter⟩ := h
  obtain ⟨entries, rfl | ⟨key, rfl⟩⟩ := exists_alternating pieces
  · rw [frames, frame_alternating, feed, if_pos rfl] at hfeed
    cases purpose with
    | literal =>
      have hform := Derives.mapping (Row.derives hrow) (Row.head?_ne hrow)
        (values_alternating entries)
      rw [show levels - (opened.length + 1) + 1 = levels - opened.length by omega] at hform
      have hhead : ∀ bracket ∈ innermost? opened,
          (Bracket.curly.enclose (segments (alternating entries))).head? ≠ some bracket.closer :=
        fun bracket _ => Unfinished.head?_tokens_append_ne (.mapping .literal (alternating entries))
          [Bracket.curly.closer] bracket
      obtain ⟨place, hplace, htokens, hstate⟩ := exists_place_of_finish houter hform hhead hfeed
      refine ⟨place, hplace, ?_, hstate⟩
      rw [htokens, openTokens, List.append_assoc]
      rfl
    | metadata =>
      -- The mapping is whole, and the form that it describes comes next.
      refine ⟨.form (.description entries :: opened), ⟨hlevel, hrow, houter⟩, ?_,
        Progress.more.inj hfeed⟩
      rw [Place.tokens, openTokens, openTokens, List.append_assoc]
      rfl
  · rw [frames, frame_alternating_concat, feed, if_pos rfl] at hfeed
    cases hfeed

theorem ne_closer_of_none (h : innermost? opened = none) :
    ∀ bracket ∈ innermost? opened, token ≠ bracket.closer := by
  simp [h]

theorem feed_frames_of_ne (hhead : ∀ bracket ∈ innermost? opened, token ≠ bracket.closer) :
    feed levels position token (.form (frames opened))
      = enter levels position token (frames opened) := by
  apply feed_eq_enter
  rw [closing?_frames]
  intro hclosing
  obtain ⟨bracket, hbracket, heq⟩ := Option.map_eq_some_iff.mp hclosing
  exact hhead bracket hbracket heq.symm

/-- Each token that does not end the reading brings the tokens from one place to the next. -/
theorem exists_place_of_feed (h : place.Sound levels)
    (hfeed : feed levels place.tokens.length token place.state = .more state) :
    ∃ next : Place, next.Sound levels ∧ next.tokens = place.tokens ++ [token] ∧
      next.state = state := by
  cases place with
  | brace opened =>
    obtain ⟨hnested, hlevel⟩ := h
    rw [Place.state, feed] at hfeed
    split at hfeed
    · next hkind =>
      refine ⟨.form (.mapping .metadata [] :: opened), ⟨hlevel, row_nil _ _, hnested⟩, ?_, ?_⟩
      · rw [Token.eq_opener_of_opensMapping hkind, Place.tokens, Place.tokens, List.append_assoc]
        rfl
      · rw [← Progress.more.inj hfeed, Place.tokens, List.length_append]
        rfl
    · cases hfeed
  | form opened =>
    by_cases hhead : ∀ bracket ∈ innermost? opened, token ≠ bracket.closer
    · rw [Place.state, feed_frames_of_ne hhead] at hfeed
      exact exists_place_of_enter h hhead hfeed
    · -- The token closes the innermost form, which a bracket has begun.
      cases opened with
      | nil => exact absurd (ne_closer_of_none rfl) hhead
      | cons inner outer =>
        cases inner with
        | sequence shape pieces =>
          have htoken : token = shape.bracket.closer := by
            simpa [innermost?, Unfinished.bracket?] using hhead
          subst htoken
          exact exists_place_of_close_sequence h hfeed
        | mapping purpose pieces =>
          have htoken : token = Bracket.curly.closer := by
            simpa [innermost?, Unfinished.bracket?] using hhead
          subst htoken
          exact exists_place_of_close_mapping h hfeed
        | abbreviation => exact absurd (ne_closer_of_none rfl) hhead
        | description => exact absurd (ne_closer_of_none rfl) hhead

end Steps

theorem exists_place_of_stateAfter (h : place.Sound levels) {tokens : List Token}
    {state : ReadState}
    (hafter : stateAfter levels place.state place.tokens.length tokens = some state) :
    ∃ next : Place, next.Sound levels ∧ next.tokens = place.tokens ++ tokens ∧
      next.state = state := by
  induction tokens generalizing place with
  | nil => exact ⟨place, h, (List.append_nil _).symm, Option.some.inj hafter⟩
  | cons token tokens ih =>
    rw [stateAfter] at hafter
    cases hfeed : feed levels place.tokens.length token place.state with
    | more between =>
      rw [hfeed] at hafter
      obtain ⟨next, hnext, htokens, rfl⟩ := exists_place_of_feed h hfeed
      have hlength : next.tokens.length = place.tokens.length + 1 := by
        rw [htokens, List.length_append, List.length_singleton]
      rw [← hlength] at hafter
      obtain ⟨last, hlast, hmore, hstate⟩ := ih hnext hafter
      exact ⟨last, hlast, by rw [hmore, htokens, List.append_assoc]; rfl, hstate⟩
    | done => rw [hfeed] at hafter; cases hafter
    | refuse => rw [hfeed] at hafter; cases hafter
    | reject => rw [hfeed] at hafter; cases hafter

/-- Wherever the reader stands among the tokens, these come to a place. -/
theorem exists_place {tokens : List Token} {state : ReadState}
    (hafter : stateAfter levels (.form []) 0 tokens = some state) :
    ∃ place : Place, place.Sound levels ∧ place.tokens = tokens ∧ place.state = state := by
  have hstart : (Place.form []).Sound levels := trivial
  exact exists_place_of_stateAfter hstart hafter

end LispForms.Reader
