import LispForms.Proofs.Reader.OpenString
import LispForms.Proofs.Reader.Part
import LispForms.Proofs.Reader.Row

/-!
# Place — the forms that tokens leave open

The reader keeps a stack of open forms with what it has made of their parts.  The same can be said
of the tokens alone: each form that has begun is a bracket or a mark with whole forms behind it, and
the next one begins where these end.  A `Place` says so, and from a place the reader goes on with
the stack that belongs to it (`run_place`).
-/

namespace LispForms.Reader

/-! ## 1. Forms that have begun -/

def leadOf : Purpose → List Token
  | .literal => []
  | .metadata => [metadataMark]

/-- A form that has begun and is not finished, with the whole forms inside it. -/
inductive Unfinished where
  | sequence (shape : Shape) (pieces : List Piece)
  | mapping (purpose : Purpose) (pieces : List Piece)
  | abbreviation (sigil : Sigil)
  /-- A metadata mark and its whole mapping; the form that it describes comes next. -/
  | description (entries : List (Piece × Piece))

namespace Unfinished

def token : Unfinished → Token
  | .sequence shape _ => shape.bracket.opener
  | .mapping .literal _ => Bracket.curly.opener
  | .mapping .metadata _ => metadataMark
  | .abbreviation sigil => sigil.token
  | .description _ => metadataMark

def tokens : Unfinished → List Token
  | .sequence shape pieces => shape.bracket.opener :: segments pieces
  | .mapping purpose pieces => leadOf purpose ++ Bracket.curly.opener :: segments pieces
  | .abbreviation sigil => [sigil.token]
  | .description entries =>
    metadataMark :: Bracket.curly.enclose (segments (alternating entries))

/-- The bracket that is open, for a form that a bracket closes. -/
def bracket? : Unfinished → Option Bracket
  | .sequence shape _ => some shape.bracket
  | .mapping _ _ => some .curly
  | .abbreviation _ => none
  | .description _ => none

/-- What is inside the form is forms in a row, each with the levels that there are inside. -/
def Sound (levels : Nat) : Unfinished → Prop
  | .sequence shape pieces => Row levels shape.bracket pieces
  | .mapping _ pieces => Row levels .curly pieces
  | .abbreviation _ => True
  | .description entries => Row levels .curly (alternating entries)

/-- What the reader keeps for the form, given the position of its first token. -/
def frame (start : Nat) : Unfinished → OpenForm
  | .sequence shape pieces => (values pieces).foldl .push (.sequence shape start [])
  | .mapping purpose pieces =>
    (values pieces).foldl .push (.mapping purpose (start + (leadOf purpose).length) .empty none)
  | .abbreviation sigil => .abbreviation sigil
  | .description entries => .description (.ofList (denoted entries))

end Unfinished

def openTokens : List Unfinished → List Token
  | [] => []
  | inner :: outer => openTokens outer ++ inner.tokens

/-- Each of the open forms, innermost first, is sound and has a level. -/
def Nested (levels : Nat) : List Unfinished → Prop
  | [] => True
  | inner :: outer =>
    outer.length < levels ∧ inner.Sound (levels - (outer.length + 1)) ∧ Nested levels outer

def frames : List Unfinished → List OpenForm
  | [] => []
  | inner :: outer => inner.frame (openTokens outer).length :: frames outer

/-- Where tokens end that do not make a form: inside open forms, the innermost first. -/
inductive Place where
  /-- A form comes next, or the end of the innermost open one. -/
  | form (opened : List Unfinished)
  /-- A metadata mark has begun a form, and its mapping comes next. -/
  | brace (opened : List Unfinished)

namespace Place

def tokens : Place → List Token
  | .form opened => openTokens opened
  | .brace opened => openTokens opened ++ [metadataMark]

/-- The tokens that the open forms have begun with, outermost first. -/
def begun : Place → List Token
  | .form opened => opened.reverse.map Unfinished.token
  | .brace opened => opened.reverse.map Unfinished.token ++ [metadataMark]

def Sound (levels : Nat) : Place → Prop
  | .form opened => Nested levels opened
  | .brace opened => Nested levels opened ∧ opened.length < levels

def state : Place → ReadState
  | .form opened => .form (frames opened)
  | .brace opened => .brace (frames opened)

end Place

/-- The bracket that closes the innermost open form, if a bracket does. -/
def innermost? (opened : List Unfinished) : Option Bracket := opened.head?.bind Unfinished.bracket?

variable {levels position : Nat} {opened : List Unfinished} {place : Place} {token : Token}

theorem length_frames (opened : List Unfinished) : (frames opened).length = opened.length := by
  induction opened with
  | nil => rfl
  | cons inner outer ih => rw [frames, List.length_cons, ih, List.length_cons]

theorem Nested.length_le (h : Nested levels opened) : opened.length ≤ levels := by
  cases opened with
  | nil => exact Nat.zero_le _
  | cons inner outer => exact h.1

theorem closer?_foldl_push {frame : OpenForm} {closer : Token}
    (hframe : frame.closer? = some closer) (vs : List Value) :
    (vs.foldl OpenForm.push frame).closer? = some closer := by
  induction vs generalizing frame with
  | nil => exact hframe
  | cons v vs ih => exact ih (closer?_push hframe v)

theorem Unfinished.closer?_frame (u : Unfinished) (start : Nat) :
    (u.frame start).closer? = u.bracket?.map Bracket.closer := by
  cases u with
  | sequence => exact closer?_foldl_push rfl _
  | mapping => exact closer?_foldl_push rfl _
  | abbreviation => rfl
  | description => rfl

theorem closing?_frames (opened : List Unfinished) :
    closing? (frames opened) = (innermost? opened).map Bracket.closer := by
  cases opened with
  | nil => rfl
  | cons inner outer => exact inner.closer?_frame _

theorem Unfinished.exists_tokens_eq_cons (u : Unfinished) : ∃ more, u.tokens = u.token :: more := by
  cases u with
  | mapping purpose => cases purpose <;> exact ⟨_, rfl⟩
  | _ => exact ⟨_, rfl⟩

theorem metadataMark_mem_announcers : metadataMark ∈ Token.announcers := by decide

theorem token_mem_announcers (sigil : Sigil) : sigil.token ∈ Token.announcers := by
  cases sigil <;> decide

theorem Unfinished.token_mem_announcers (u : Unfinished) : u.token ∈ Token.announcers := by
  cases u with
  | sequence shape => exact shape.bracket.opener_mem_announcers
  | mapping purpose =>
    cases purpose with
    | literal => exact Bracket.curly.opener_mem_announcers
    | metadata => exact metadataMark_mem_announcers
  | abbreviation sigil => exact Reader.token_mem_announcers sigil
  | description => exact metadataMark_mem_announcers

theorem closer_notMem_announcers (bracket : Bracket) : bracket.closer ∉ Token.announcers := by
  cases bracket <;> decide

/-- No open form starts with the token that would close the one around it. -/
theorem Unfinished.head?_tokens_append_ne (u : Unfinished) (more : List Token) (bracket : Bracket) :
    (u.tokens ++ more).head? ≠ some bracket.closer := by
  obtain ⟨rest, htokens⟩ := u.exists_tokens_eq_cons
  rw [htokens]
  intro hhead
  apply closer_notMem_announcers bracket
  rw [← Option.some.inj hhead]
  exact u.token_mem_announcers

/-! ## 2. The reader at a place -/

theorem begins_of_mem_announcers {frames : List OpenForm} (htoken : token ∈ Token.announcers)
    (rest : List Token) : Begins frames (token :: rest) := by
  intro closer hcloser hhead
  rcases exists_bracket_of_closing? hcloser with ⟨bracket, rfl⟩
  apply closer_notMem_announcers bracket
  rw [← Option.some.inj hhead]
  exact htoken

/-- An opening bracket or a mark begins a form wherever it stands. -/
theorem run_announcer {frames : List OpenForm} (htoken : token ∈ Token.announcers)
    (rest : List Token) :
    run levels (.form frames) position (token :: rest)
      = resume levels (position + 1) rest (enter levels position token frames) := by
  rw [run_cons, feed_of_begins (begins_of_mem_announcers htoken rest)]

theorem run_braces {frames : List OpenForm} (hlevels : frames.length < levels)
    (rest : List Token) (purpose : Purpose) :
    run levels (.form frames) position (leadOf purpose ++ Bracket.curly.opener :: rest)
      = run levels (.form (.mapping purpose (position + (leadOf purpose).length) .empty none
          :: frames)) (position + (leadOf purpose).length + 1) rest := by
  cases purpose with
  | literal =>
    show run levels _ position (Bracket.curly.opener :: rest) = _
    rw [run_announcer (by decide), enter_eq hlevels]
    rfl
  | metadata =>
    show run levels _ position (metadataMark :: Bracket.curly.opener :: rest) = _
    rw [run_announcer (by decide), enter_eq hlevels]
    rfl

/-- Reading the tokens of a form that is left open is putting its frame on the stack. -/
theorem Unfinished.run_append {u : Unfinished} {budget : Nat} (h : u.Sound budget)
    {frames : List OpenForm} (hlevels : frames.length + 1 + budget ≤ levels) (rest : List Token) :
    run levels (.form frames) position (u.tokens ++ rest)
      = run levels (.form (u.frame position :: frames)) (position + u.tokens.length) rest := by
  have hlevel : frames.length < levels := by omega
  cases u with
  | sequence shape pieces =>
    have hframe : (OpenForm.sequence shape position []).closer? = some shape.bracket.closer := rfl
    show run levels _ position (shape.bracket.opener :: (segments pieces ++ rest)) = _
    rw [run_announcer shape.bracket.opener_mem_announcers, enter_eq hlevel, Token.kind_opener]
    show run levels _ (position + 1) (segments pieces ++ rest) = _
    rw [run_segments hframe hlevels pieces h.reads h.head?_ne, Unfinished.tokens, List.length_cons,
      Nat.add_right_comm, Nat.add_assoc]
    rfl
  | mapping purpose pieces =>
    have hframe :
        (OpenForm.mapping purpose (position + (leadOf purpose).length) .empty none).closer?
          = some Bracket.curly.closer := rfl
    show run levels _ position
      (leadOf purpose ++ Bracket.curly.opener :: segments pieces ++ rest) = _
    rw [List.append_assoc, List.cons_append, run_braces hlevel,
      run_segments hframe hlevels pieces h.reads h.head?_ne, Unfinished.tokens, List.length_append,
      List.length_cons]
    show run levels _ _ rest = run levels _ _ rest
    congr 1
    omega
  | abbreviation sigil =>
    show run levels _ position (sigil.token :: rest) = _
    rw [run_announcer (Reader.token_mem_announcers sigil), enter_eq hlevel,
      Token.kind_token]
    rfl
  | description entries =>
    show run levels _ position (leadOf .metadata ++ Bracket.curly.enclose _ ++ rest) = _
    rw [List.append_assoc, Bracket.enclose_append, run_braces hlevel,
      run_mapping .metadata _ hlevels h.reads h.head?_ne (values_alternating entries), closeMapping,
      resume, Unfinished.tokens, List.length_cons, Bracket.length_enclose]
    show run levels _ _ rest = run levels _ _ rest
    congr 1
    show position + 1 + 1 + _ + 1 = _
    omega

theorem run_openTokens (h : Nested levels opened) (rest : List Token) :
    run levels (.form []) 0 (openTokens opened ++ rest)
      = run levels (.form (frames opened)) (openTokens opened).length rest := by
  induction opened generalizing rest with
  | nil => rfl
  | cons inner outer ih =>
    obtain ⟨hlevel, hinner, houter⟩ := h
    have hlevels : (frames outer).length + 1 + (levels - (outer.length + 1)) ≤ levels := by
      rw [length_frames]
      omega
    rw [openTokens, List.append_assoc, ih houter, Unfinished.run_append hinner hlevels,
      List.length_append]
    rfl

/-- The reader stands at the place when it has read the tokens up to there. -/
theorem run_place (h : place.Sound levels) (rest : List Token) :
    run levels (.form []) 0 (place.tokens ++ rest)
      = run levels place.state place.tokens.length rest := by
  cases place with
  | form opened => exact run_openTokens h rest
  | brace opened =>
    obtain ⟨hnested, hlevel⟩ := h
    have hlevel : (frames opened).length < levels := by rwa [length_frames]
    show run levels _ 0 (openTokens opened ++ [metadataMark] ++ rest) = _
    rw [List.append_assoc, run_openTokens hnested]
    show run levels _ _ (metadataMark :: rest) = _
    rw [run_announcer (by decide), enter_eq hlevel, Place.tokens, List.length_append]
    rfl

end LispForms.Reader
