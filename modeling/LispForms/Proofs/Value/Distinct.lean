import LispForms.Proofs.Reader.Shape

/-!
# Distinct — readable values are written differently

The written form of a readable value can be split off the front of a text, and tells which value it
is.  This does not go by reading the text again, since a list may hold `)` behind a mark: what tells
the `)` of such a list from the one that closes it is the space in front of it, or that it would be
the first child.
-/

namespace LispForms.Value

open Token (AtDelimiter tokenize)

/-- Where two readable values are written at the front of one text, and the first is this one, they
are the same value with the same text behind it. -/
def SplitsOff (v : Value) : Prop :=
  ∀ (w : Value) (rest rest' : Text), w.AllReadable → AtDelimiter rest → AtDelimiter rest' →
    v.display ++ rest = w.display ++ rest' → v = w ∧ rest = rest'

theorem AllReadable.tokenize_display_append {v : Value} (h : v.AllReadable) {rest : Text}
    (hrest : AtDelimiter rest) : tokenize (v.display ++ rest) = v.tokens ++ tokenize rest :=
  Value.tokenize_display_append v h.wellSpelt rest hrest

/-- Values that are written alike, each in front of a delimiter, start with the same token. -/
theorem head?_tokens_eq {v w : Value} {rest rest' : Text} (hv : v.AllReadable) (hw : w.AllReadable)
    (hrest : AtDelimiter rest) (hrest' : AtDelimiter rest')
    (h : v.display ++ rest = w.display ++ rest') : v.tokens.head? = w.tokens.head? := by
  have htokens := congrArg tokenize h
  rw [hv.tokenize_display_append hrest, hw.tokenize_display_append hrest'] at htokens
  have hhead := congrArg List.head? htokens
  rw [head?_tokens_append, head?_tokens_append] at hhead
  exact hhead

/-! ## 1. Rows of values -/

theorem closing_ne_space (bracket : Bracket) : bracket.closing ≠ ' ' := by
  cases bracket <;> decide

/-- Behind the first value of a row, what comes next tells whether the row goes on. -/
theorem row_eq {bracket : Bracket} {items items' : List Value} {rest rest' : Text}
    (hitems : ∀ item ∈ items, item.SplitsOff) (hitems' : ∀ item ∈ items', item.AllReadable)
    (h : displayItemsThen items [' '] (bracket.closing :: rest)
      = displayItemsThen items' [' '] (bracket.closing :: rest')) :
    items = items' ∧ rest = rest' := by
  induction items generalizing items' with
  | nil =>
    cases items' with
    | nil => exact ⟨rfl, (List.cons.inj h).2⟩
    | cons item' more' =>
      rw [displayItemsThen_cons] at h
      exact absurd (List.cons.inj h).1 (closing_ne_space bracket)
  | cons item more ih =>
    cases items' with
    | nil =>
      rw [displayItemsThen_cons] at h
      exact absurd (List.cons.inj h).1.symm (closing_ne_space bracket)
    | cons item' more' =>
      rw [displayItemsThen_cons, displayItemsThen_cons] at h
      rcases List.forall_mem_cons.mp hitems with ⟨hitem, hmore⟩
      rcases List.forall_mem_cons.mp hitems' with ⟨hitem', hmore'⟩
      have hclosing := fun rest => bracket.atDelimiter_closing rest
      rcases hitem item' _ _ hitem' (atDelimiter_displayItemsThen more (hclosing rest))
        (atDelimiter_displayItemsThen more' (hclosing rest')) (List.cons.inj h).2 with ⟨heq, hrow⟩
      rcases ih hmore hmore' hrow with ⟨hitemsEq, hrestEq⟩
      exact ⟨by rw [heq, hitemsEq], hrestEq⟩

/-- A closing bracket does not start a row whose first value is not its symbol. -/
theorem closing_ne_row {bracket : Bracket} {item : Value} {more : List Value} {rest rest' : Text}
    (hitem : item.AllReadable) (hhead : item ≠ .symbol bracket.closer) :
    bracket.closing :: rest ≠ displayItemsThen (item :: more) [] (bracket.closing :: rest') := by
  intro h
  rw [displayItemsThen_cons, List.nil_append] at h
  have hdelimiter := atDelimiter_displayItemsThen more (bracket.atDelimiter_closing rest')
  have htokens := congrArg tokenize h
  rw [bracket.tokenize_closing, hitem.tokenize_display_append hdelimiter] at htokens
  have hfirst := congrArg List.head? htokens
  rw [head?_tokens_append] at hfirst
  exact hhead (hitem.readable.wellSpelt.eq_symbol_of_head? hfirst.symm)

/-- The row of the children of a container ends at the bracket that closes it. -/
theorem first_row_eq {bracket : Bracket} {items items' : List Value} {rest rest' : Text}
    (hitems : ∀ item ∈ items, item.SplitsOff) (hreadable : ∀ item ∈ items, item.AllReadable)
    (hitems' : ∀ item ∈ items', item.AllReadable)
    (hhead : items.head? ≠ some (.symbol bracket.closer))
    (hhead' : items'.head? ≠ some (.symbol bracket.closer))
    (h : displayItemsThen items [] (bracket.closing :: rest)
      = displayItemsThen items' [] (bracket.closing :: rest')) :
    items = items' ∧ rest = rest' := by
  cases items with
  | nil =>
    cases items' with
    | nil => exact ⟨rfl, (List.cons.inj h).2⟩
    | cons item' more' =>
      have hne : item' ≠ .symbol bracket.closer := fun heq => hhead' (congrArg some heq)
      exact absurd h (closing_ne_row (hitems' item' List.mem_cons_self) hne)
  | cons item more =>
    cases items' with
    | nil =>
      have hne : item ≠ .symbol bracket.closer := fun heq => hhead (congrArg some heq)
      exact absurd h.symm (closing_ne_row (hreadable item List.mem_cons_self) hne)
    | cons item' more' =>
      -- With a space in front of both rows this is the case of `row_eq`.
      apply row_eq hitems hitems'
      rw [displayItemsThen_cons, displayItemsThen_cons] at h ⊢
      exact congrArg (List.cons ' ') h

/-! ## 2. Values -/

theorem splitsOff (v : Value) : v.AllReadable → v.SplitsOff := by
  induction v using induction_on_children with
  | step v ih =>
    intro hv w rest rest' hw hrest hrest' h
    have hhead := head?_tokens_eq hv hw hrest hrest' h
    cases hbracket : v.bracket? with
    | none =>
      cases hbracket' : w.bracket? with
      | none =>
        -- Two atoms are one as soon as they have the same token.
        rw [tokens_of_atom hbracket, tokens_of_atom hbracket'] at hhead
        have hdisplay : v.display = w.display := Option.some.inj hhead
        have hatom := hv.readable.wellSpelt.ofAtom?_display hbracket
        rw [hdisplay, hw.readable.wellSpelt.ofAtom?_display hbracket'] at hatom
        rw [hdisplay] at h
        exact ⟨(Option.some.inj hatom).symm, List.append_cancel_left h⟩
      | some bracket' =>
        exact absurd hhead (hv.readable.wellSpelt.head?_tokens_ne hbracket hbracket')
    | some bracket =>
      cases hbracket' : w.bracket? with
      | none =>
        exact absurd hhead.symm (hw.readable.wellSpelt.head?_tokens_ne hbracket' hbracket)
      | some bracket' =>
        rw [tokens_of_bracket? hbracket, tokens_of_bracket? hbracket'] at hhead
        have hsame : bracket = bracket' := by
          cases bracket <;> cases bracket' <;> first | rfl | cases hhead
        subst hsame
        -- Behind the same opening bracket stand the rows of the children.
        rw [display_append_of_bracket? hbracket, display_append_of_bracket? hbracket'] at h
        have hchildren : ∀ child ∈ v.children, child.SplitsOff := fun child hchild =>
          ih child hchild (hv.children child hchild)
        rcases first_row_eq hchildren hv.children hw.children
          (hv.readable.head?_children_ne hbracket) (hw.readable.head?_children_ne hbracket')
          (List.cons.inj h).2 with ⟨hrow, hrestEq⟩
        refine ⟨eq_of_children_eq (hbracket.trans hbracket'.symm) ?_ hrow, hrestEq⟩
        rw [hbracket]
        exact Option.some_ne_none bracket

theorem display_injective {v w : Value} (hv : v.AllReadable) (hw : w.AllReadable)
    (h : v.display = w.display) : v = w := by
  have happend : v.display ++ [] = w.display ++ [] := by rw [h]
  exact (splitsOff v hv w [] [] hw Token.atDelimiter_nil Token.atDelimiter_nil happend).1

end LispForms.Value
