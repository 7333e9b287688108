import LispForms.Cursor
import LispForms.Proofs.Reader.Grammar

/-!
# Run — the reader follows the grammar

The reader keeps the open forms on a stack, the grammar knows only segments.  What ties them is a
statement about any stack: reading a segment that the grammar derives is handing its value to the
innermost open form (`Derives.reads`).  In the other direction a reading that does not fail begins
with such a segment (`fails_or_derives`), by induction on the tokens that are left.
-/

namespace LispForms

/-! ## 1. The innermost open form -/

def OpenForm.closer? : OpenForm → Option Token
  | .sequence shape .. => some shape.bracket.closer
  | .mapping .. => some Bracket.curly.closer
  | .abbreviation _ => none
  | .description _ => none

def OpenForm.push : OpenForm → Value → OpenForm
  | .sequence shape opening items, value => .sequence shape opening (value :: items)
  | .mapping purpose opening entries none, value => .mapping purpose opening entries (some value)
  | .mapping purpose opening entries (some key), value =>
    .mapping purpose opening (entries.insert key value) none
  | .abbreviation sigil, _ => .abbreviation sigil
  | .description metadata, _ => .description metadata

namespace Reader

/-- The token that closes the innermost open form. -/
def closing? (opened : List OpenForm) : Option Token := opened.head?.bind OpenForm.closer?

variable {levels position : Nat} {opened : List OpenForm} {token closer : Token}

theorem closer?_push {frame : OpenForm} (hframe : frame.closer? = some closer) (value : Value) :
    (frame.push value).closer? = some closer := by
  cases frame with
  | sequence => exact hframe
  | mapping _ _ _ key => cases key <;> exact hframe
  | abbreviation => cases hframe
  | description => cases hframe

theorem finish_of_closer? {frame : OpenForm} (hframe : frame.closer? = some closer)
    (value : Value) :
    finish value (frame :: opened) = .more (.form (frame.push value :: opened)) := by
  cases frame with
  | sequence => rfl
  | mapping _ _ _ key => cases key <;> rfl
  | abbreviation => cases hframe
  | description => cases hframe

theorem foldl_push_sequence (shape : Shape) (opening : Nat) (items vs : List Value) :
    vs.foldl OpenForm.push (.sequence shape opening items)
      = .sequence shape opening (vs.reverse ++ items) := by
  induction vs generalizing items with
  | nil => rfl
  | cons v vs ih => simp [OpenForm.push, ih]

theorem foldl_push_mapping (purpose : Purpose) (opening : Nat) (entries : Mapping)
    (pairs : List (Value × Value)) :
    (Value.keysAndValues pairs).foldl OpenForm.push (.mapping purpose opening entries none)
      = .mapping purpose opening
          (pairs.foldl (fun m pair => m.insert pair.1 pair.2) entries) none := by
  induction pairs generalizing entries with
  | nil => rfl
  | cons pair pairs ih => simpa [Value.keysAndValues, OpenForm.push] using ih _

/-- A mapping has a key that waits for its value exactly if the values so far do not pair up. -/
theorem pairs_or_waiting_key (purpose : Purpose) (opening : Nat) (entries : Mapping) :
    ∀ vs : List Value, (∃ pairs, vs = Value.keysAndValues pairs) ∨
      ∃ entries' key, vs.foldl OpenForm.push (.mapping purpose opening entries none)
        = .mapping purpose opening entries' (some key)
  | [] => .inl ⟨[], rfl⟩
  | [key] => .inr ⟨entries, key, rfl⟩
  | key :: value :: vs => by
    rcases pairs_or_waiting_key purpose opening (entries.insert key value) vs with
      ⟨pairs, hpairs⟩ | hwaiting
    · exact .inl ⟨(key, value) :: pairs, by rw [hpairs]; rfl⟩
    · exact .inr hwaiting

/-! ## 2. One token -/

/-- Goes on after a token, the next one standing at the position. -/
def resume (levels next : Nat) (rest : List Token) : Progress → Reading
  | .more state => run levels state next rest
  | .done value => ⟨.ok value, next⟩
  | .refuse error => ⟨.error error, next - 1⟩
  | .reject error => ⟨.error error, next⟩

theorem run_cons (state : ReadState) (rest : List Token) :
    run levels state position (token :: rest)
      = resume levels (position + 1) rest (feed levels position token state) := by
  rw [run]
  cases feed levels position token state <;> rfl

theorem feed_eq_enter (h : closing? opened ≠ some token) :
    feed levels position token (.form opened) = enter levels position token opened := by
  cases opened with
  | nil => rfl
  | cons frame opened =>
    cases frame with
    | sequence => exact if_neg fun heq => h (congrArg some heq.symm)
    | mapping => exact if_neg fun heq => h (congrArg some heq.symm)
    | abbreviation => rfl
    | description => rfl

theorem enter_eq (hlevels : opened.length < levels) :
    enter levels position token opened =
      match token.kind with
      | .opens shape => .more (.form (.sequence shape position [] :: opened))
      | .opensMapping => .more (.form (.mapping .literal position .empty none :: opened))
      | .abbreviates sigil => .more (.form (.abbreviation sigil :: opened))
      | .describes => .more (.brace opened)
      | .atom =>
        match Value.ofAtom? token with
        | some value => finish value opened
        | none => .reject ((ReadState.form opened).error (.malformedString position)) :=
  if_neg (Nat.not_le.mpr hlevels)

/-! ## 3. What the grammar derives is read -/

/-- The tokens do not start by closing the innermost open form. -/
def Begins (opened : List OpenForm) (tokens : List Token) : Prop :=
  ∀ closer ∈ closing? opened, tokens.head? ≠ some closer

theorem begins_of_none (h : closing? opened = none) (tokens : List Token) :
    Begins opened tokens := by
  simp [Begins, h]

theorem begins_of_closer? {frame : OpenForm} (hframe : frame.closer? = some closer)
    {tokens : List Token} (hhead : tokens.head? ≠ some closer) :
    Begins (frame :: opened) tokens := by
  intro c hc
  have hc : frame.closer? = some c := hc
  rw [hframe] at hc
  cases hc
  exact hhead

theorem feed_of_begins {tokens : List Token} (h : Begins opened (token :: tokens)) :
    feed levels position token (.form opened) = enter levels position token opened :=
  feed_eq_enter fun hclosing => h token hclosing rfl

/-- With enough levels, reading the segment is handing the value to the innermost open form. -/
def Reads (budget : Nat) (segment : List Token) (value : Value) : Prop :=
  ∀ (levels position : Nat) (opened : List OpenForm) (rest : List Token),
    opened.length + budget ≤ levels → Begins opened segment →
    run levels (.form opened) position (segment ++ rest)
      = resume levels (position + segment.length) rest (finish value opened)

/-- Forms in a row inside brackets go into the open form one by one. -/
theorem run_segments {budget : Nat} {frame : OpenForm} (hframe : frame.closer? = some closer)
    (hlevels : opened.length + 1 + budget ≤ levels) (pieces : List Piece)
    (hpieces : ∀ piece ∈ pieces, Reads budget piece.segment piece.value)
    (hcloser : ∀ piece ∈ pieces, piece.segment.head? ≠ some closer) (rest : List Token) :
    run levels (.form (frame :: opened)) position (segments pieces ++ rest)
      = run levels (.form ((values pieces).foldl OpenForm.push frame :: opened))
          (position + (segments pieces).length) rest := by
  induction pieces generalizing frame position with
  | nil => rfl
  | cons piece pieces ih =>
    rcases List.forall_mem_cons.mp hpieces with ⟨hpiece, hpieces⟩
    rcases List.forall_mem_cons.mp hcloser with ⟨hhead, hcloser⟩
    -- The first form goes into the frame, which the same bracket closes as before.
    have hread := hpiece levels position (frame :: opened) (segments pieces ++ rest)
      (by simpa using hlevels) (begins_of_closer? hframe hhead)
    rw [finish_of_closer? hframe] at hread
    show run levels _ position ((piece.segment ++ segments pieces) ++ rest) = _
    rw [List.append_assoc, hread, resume, ih (closer?_push hframe _) hpieces hcloser]
    simp [segments, values, Nat.add_assoc]

theorem run_sequence {budget : Nat} (shape : Shape) (opening : Nat)
    (hlevels : opened.length + 1 + budget ≤ levels) {pieces : List Piece}
    (hpieces : ∀ piece ∈ pieces, Reads budget piece.segment piece.value)
    (hcloser : ∀ piece ∈ pieces, piece.segment.head? ≠ some shape.bracket.closer)
    (rest : List Token) :
    run levels (.form (.sequence shape opening [] :: opened)) position
        (segments pieces ++ shape.bracket.closer :: rest)
      = resume levels (position + (segments pieces).length + 1) rest
          (finish (.sequence shape (values pieces)) opened) := by
  have hframe : (OpenForm.sequence shape opening []).closer? = some shape.bracket.closer := rfl
  rw [run_segments hframe hlevels pieces hpieces hcloser, foldl_push_sequence, run_cons, feed,
    if_pos rfl]
  simp

theorem run_mapping {budget : Nat} (purpose : Purpose) (opening : Nat)
    (hlevels : opened.length + 1 + budget ≤ levels) {pieces : List Piece}
    {pairs : List (Value × Value)}
    (hpieces : ∀ piece ∈ pieces, Reads budget piece.segment piece.value)
    (hcloser : ∀ piece ∈ pieces, piece.segment.head? ≠ some Bracket.curly.closer)
    (hpairs : values pieces = Value.keysAndValues pairs) (rest : List Token) :
    run levels (.form (.mapping purpose opening .empty none :: opened)) position
        (segments pieces ++ Bracket.curly.closer :: rest)
      = resume levels (position + (segments pieces).length + 1) rest
          (closeMapping purpose opening (.ofList pairs) none opened) := by
  have hframe : (OpenForm.mapping purpose opening .empty none).closer?
      = some Bracket.curly.closer := rfl
  rw [run_segments hframe hlevels pieces hpieces hcloser, hpairs, foldl_push_mapping, run_cons,
    feed, if_pos rfl]
  rfl

theorem reads_atom {budget : Nat} {value : Value} (htoken : token ∉ Token.announcers)
    (h : Value.ofAtom? token = some value) : Reads (budget + 1) [token] value := by
  intro levels position opened rest hlevels hbegins
  show run levels _ position (token :: rest) = _
  rw [run_cons, feed_of_begins hbegins, enter_eq (by omega), Token.kind_eq_atom_iff.mpr htoken, h]
  rfl

theorem Derives.reads {budget : Nat} {segment : List Token} {value : Value}
    (h : Derives budget segment value) : Reads budget segment value := by
  induction h with
  | @sequence budget pieces shape _ hcloser ih =>
    intro levels position opened rest hlevels hbegins
    rw [Bracket.enclose_append, run_cons, feed_of_begins hbegins, enter_eq (by omega),
      Token.kind_opener]
    show run levels _ (position + 1) (segments pieces ++ shape.bracket.closer :: rest) = _
    rw [run_sequence shape position (by omega) ih hcloser, Bracket.length_enclose]
    congr 1
    omega
  | @mapping budget pieces pairs _ hcloser hpairs ih =>
    intro levels position opened rest hlevels hbegins
    rw [Bracket.enclose_append, run_cons, feed_of_begins hbegins, enter_eq (by omega)]
    show run levels _ (position + 1) (segments pieces ++ Bracket.curly.closer :: rest) = _
    rw [run_mapping .literal position (by omega) ih hcloser hpairs, Bracket.length_enclose,
      closeMapping]
    congr 1
    omega
  | @abbreviation budget segment value sigil _ ih =>
    intro levels position opened rest hlevels hbegins
    rw [List.cons_append, run_cons, feed_of_begins hbegins, enter_eq (by omega), Token.kind_token]
    show run levels (.form (.abbreviation sigil :: opened)) (position + 1) (segment ++ rest) = _
    rw [ih levels _ _ rest (by rw [List.length_cons]; omega) (begins_of_none rfl _), finish,
      List.length_cons]
    congr 1
    omega
  | @description budget pieces pairs segment value _ hcloser hpairs _ ih ihform =>
    intro levels position opened rest hlevels hbegins
    rw [List.cons_append, run_cons, feed_of_begins hbegins, enter_eq (by omega)]
    -- The mark is read, then the mapping, then the form that the mapping describes.
    show run levels (.brace opened) (position + 1) (_ ++ segment ++ rest) = _
    rw [List.append_assoc, Bracket.enclose_append, run_cons, feed,
      if_pos (show Token.kind Bracket.curly.opener = .opensMapping from rfl)]
    show run levels _ (position + 1 + 1)
      (segments pieces ++ Bracket.curly.closer :: (segment ++ rest)) = _
    rw [run_mapping .metadata _ (by omega) ih hcloser hpairs, closeMapping, resume,
      ihform levels _ _ rest (by rw [List.length_cons]; omega) (begins_of_none rfl _), finish,
      List.length_cons, List.length_append, Bracket.length_enclose]
    congr 1
    omega
  | number htoken hnumber =>
    apply reads_atom htoken
    rw [Value.ofAtom?, hnumber]
  | string htoken hnumber hliteral =>
    apply reads_atom htoken
    have hquote := Text.startsWithQuote_of_isStringLiteral hliteral
    rw [Value.ofAtom?, hnumber, hquote, hliteral]
    rfl
  | symbol htoken hnumber hquote =>
    apply reads_atom htoken
    rw [Value.ofAtom?, hnumber, hquote]
    rfl

end Reader

end LispForms
