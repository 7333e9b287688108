import LispForms.Proofs.Reader.Shape

/-!
# Part — what stands inside a form is a form too

Whatever stands inside a value that tokens denote is denoted by some of these tokens, in a row; only
the names that marks put into their lists are not.  So a fact about all values inside is a fact
about single rules of the grammar, and needs no induction of its own.
-/

namespace LispForms

/-- The marks, each with the name that it puts into its list. -/
def Token.markNames : List (Token × Text) :=
  [(Sigil.token .quote, Sigil.name .quote), (Sigil.token .quasiquote, Sigil.name .quasiquote),
    (Sigil.token .unquote, Sigil.name .unquote),
    (Sigil.token .spliceUnquote, Sigil.name .spliceUnquote),
    (Sigil.token .deref, Sigil.name .deref), (metadataMark, metadataName)]

theorem Sigil.mem_markNames (sigil : Sigil) : (sigil.token, sigil.name) ∈ Token.markNames := by
  cases sigil <;> decide

namespace Reader

open Value (forall_mem_nodes_iff forall_mem_nodes_atom)

variable {levels : Nat} {segment : List Token} {value : Value}

/-- The value is the name of a mark, or some of the tokens, in a row, denote it. -/
def StandsIn (levels : Nat) (segment : List Token) (node : Value) : Prop :=
  (∃ mark ∈ Token.markNames, node = .symbol mark.2) ∨
    ∃ part, part <:+: segment ∧ Derives levels part node

theorem Derives.standsIn_self (h : Derives levels segment value) : StandsIn levels segment value :=
  .inr ⟨segment, List.infix_rfl, h⟩

theorem standsIn_name {mark : Token × Text} (h : mark ∈ Token.markNames) :
    StandsIn levels segment (.symbol mark.2) :=
  .inl ⟨mark, h, rfl⟩

theorem StandsIn.mono {node : Value} (h : StandsIn levels segment node) {more : Nat}
    {whole : List Token} (hlevels : levels ≤ more) (hsegment : segment <:+: whole) :
    StandsIn more whole node := by
  rcases h with hname | ⟨part, hpart, hderives⟩
  · exact .inl hname
  · exact .inr ⟨part, hpart.trans hsegment, hderives.mono hlevels⟩

theorem segment_infix_enclose (bracket : Bracket) {pieces : List Piece} {piece : Piece}
    (hpiece : piece ∈ pieces) : piece.segment <:+: bracket.enclose (segments pieces) := by
  have hrow : piece.segment <:+: segments pieces := by
    rw [segments, List.flatMap_def]
    exact List.infix_of_mem_flatten (List.mem_map_of_mem hpiece)
  exact hrow.trans ⟨[bracket.opener], [bracket.closer], rfl⟩

/-- Every value inside the value is the name of a mark, or denoted by a part of the tokens. -/
theorem Derives.standsIn (h : Derives levels segment value) :
    ∀ node ∈ value.nodes, StandsIn levels segment node := by
  induction h with
  | sequence shape hpieces hcloser ih =>
    refine forall_mem_nodes_iff.mpr ⟨(Derives.sequence shape hpieces hcloser).standsIn_self, ?_⟩
    rw [Value.children_sequence]
    exact List.forall_mem_map.mpr fun piece hpiece node hnode =>
      (ih piece hpiece node hnode).mono (Nat.le_succ _) (segment_infix_enclose _ hpiece)
  | mapping hpieces hcloser hpairs ih =>
    refine forall_mem_nodes_iff.mpr
      ⟨(Derives.mapping hpieces hcloser hpairs).standsIn_self, ?_⟩
    exact forall_mem_children_toValue hpairs fun piece hpiece node hnode =>
      (ih piece hpiece node hnode).mono (Nat.le_succ _) (segment_infix_enclose _ hpiece)
  | @abbreviation _ segment _ sigil hform ih =>
    refine forall_mem_nodes_iff.mpr ⟨(Derives.abbreviation sigil hform).standsIn_self, ?_⟩
    have hpart : segment <:+: sigil.token :: segment := (List.suffix_cons _ _).isInfix
    exact List.forall_mem_cons.mpr
      ⟨forall_mem_nodes_atom rfl (standsIn_name sigil.mem_markNames),
        List.forall_mem_singleton.mpr fun node hnode => (ih node hnode).mono (Nat.le_succ _) hpart⟩
  | @description levels pieces pairs segment _ hpieces hcloser hpairs hform ih ihform =>
    refine forall_mem_nodes_iff.mpr
      ⟨(Derives.description hpieces hcloser hpairs hform).standsIn_self, ?_⟩
    have hbraces : Bracket.curly.enclose (segments pieces) <:+:
        metadataMark :: (Bracket.curly.enclose (segments pieces) ++ segment) :=
      ⟨[metadataMark], segment, rfl⟩
    have hpart : segment <:+:
        metadataMark :: (Bracket.curly.enclose (segments pieces) ++ segment) :=
      ((List.suffix_append _ _).trans (List.suffix_cons _ _)).isInfix
    -- The metadata is a mapping of its own, read from the tokens in braces.
    have hmapping : ∀ node ∈ (Mapping.ofList pairs).toValue.nodes,
        StandsIn (levels + 1) (Bracket.curly.enclose (segments pieces)) node :=
      forall_mem_nodes_iff.mpr ⟨(Derives.mapping hpieces hcloser hpairs).standsIn_self,
        forall_mem_children_toValue hpairs fun piece hpiece node hnode =>
          (ih piece hpiece node hnode).mono (Nat.le_succ _) (segment_infix_enclose _ hpiece)⟩
    have hname : (metadataMark, metadataName) ∈ Token.markNames := by decide
    exact List.forall_mem_cons.mpr
      ⟨forall_mem_nodes_atom rfl (standsIn_name hname),
        List.forall_mem_cons.mpr
          ⟨fun node hnode => (ihform node hnode).mono (Nat.le_succ _) hpart,
            List.forall_mem_singleton.mpr fun node hnode =>
              (hmapping node hnode).mono (Nat.le_refl _) hbraces⟩⟩
  | number htoken hnumber =>
    exact forall_mem_nodes_atom rfl (Derives.number htoken hnumber).standsIn_self
  | string htoken hnumber hliteral =>
    exact forall_mem_nodes_atom rfl (Derives.string htoken hnumber hliteral).standsIn_self
  | symbol htoken hnumber hquote =>
    exact forall_mem_nodes_atom rfl (Derives.symbol htoken hnumber hquote).standsIn_self

/-! ## 1. Rules that a value can come from -/

/-- Only a token by itself denotes a string, and then its own text. -/
theorem Derives.segment_of_string {literal : Text} (h : Derives levels segment (.string literal)) :
    segment = [literal] := by
  generalize hvalue : Value.string literal = v at h
  cases h with
  | sequence shape => cases shape <;> cases hvalue
  | mapping => cases hvalue
  | abbreviation => cases hvalue
  | description => cases hvalue
  | number => cases hvalue
  | string =>
    cases hvalue
    rfl
  | symbol => cases hvalue

theorem eq_one_of_closer {name : Text} {value : Value} {more : List Value} {i : Nat}
    (hname : name ≠ Bracket.round.closer) (hmore : .symbol Bracket.round.closer ∉ more)
    (hitem : (Value.symbol name :: value :: more)[i]? = some (.symbol Bracket.round.closer)) :
    i = 1 := by
  match i with
  | 0 => exact absurd (Value.symbol.inj (Option.some.inj hitem)) hname
  | 1 => rfl
  | i + 2 =>
    have hitem : more[i]? = some (.symbol Bracket.round.closer) := hitem
    exact absurd (List.mem_of_getElem? hitem) hmore

/-- A list that holds `)` has been made by a mark, and has it right behind the name of the mark. -/
theorem Derives.mark_of_closer {items : List Value} (h : Derives levels segment (.list items))
    {i : Nat} (hitem : items[i]? = some (.symbol Bracket.round.closer)) :
    i = 1 ∧ ∃ mark ∈ Token.markNames,
      segment.head? = some mark.1 ∧ items[0]? = some (.symbol mark.2) := by
  generalize hvalue : Value.list items = v at h
  cases h with
  | sequence shape hpieces hcloser =>
    cases shape with
    | list =>
      cases hvalue
      exact absurd (List.mem_of_getElem? hitem) (closer_notMem_values hpieces hcloser)
    | vector => cases hvalue
  | mapping => cases hvalue
  | abbreviation sigil =>
    cases hvalue
    have hname : sigil.name ≠ Bracket.round.closer := by cases sigil <;> decide
    exact ⟨eq_one_of_closer hname List.not_mem_nil hitem, _, sigil.mem_markNames, rfl, rfl⟩
  | description =>
    cases hvalue
    -- Behind the form stands its metadata, which is no symbol.
    have hmetadata : ∀ entries, Value.symbol Bracket.round.closer ∉ [Value.mapping entries] :=
      fun entries hmem => nomatch List.mem_singleton.mp hmem
    exact ⟨eq_one_of_closer (by decide) (hmetadata _) hitem, (metadataMark, metadataName),
      by decide, rfl, rfl⟩
  | number => cases hvalue
  | string => cases hvalue
  | symbol => cases hvalue

end Reader

end LispForms
