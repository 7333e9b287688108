import LispForms.Proofs.Reader.Shape

/-!
# Round trip — which values are read back from their written form

A value is read back from its written form exactly if it is canonical.  One half follows the value
and derives it from its own tokens.  The other half follows a derivation: tokens without marks
derive nothing that is nested deeper than they are, and no `)` inside a list.
-/

namespace LispForms

def Token.marks : List Token :=
  [Sigil.token .quote, Sigil.token .quasiquote, Sigil.token .unquote, Sigil.token .spliceUnquote,
    Sigil.token .deref, metadataMark]

namespace Value

open Reader (Derives Piece segments values)

/-- Every mapping inside the value has been made by insertion, which is the only way to make one. -/
def Built (v : Value) : Prop := ∀ node ∈ v.nodes, node.Inserted

/-- The atoms are spelt as tokens, no bracket holds the symbol that closes it, and the value is not
nested too deeply to be read. -/
structure Canonical (v : Value) : Prop where
  wellSpelt : ∀ node ∈ v.nodes, node.WellSpelt
  holdsNoCloser : ∀ node ∈ v.nodes, node.HoldsNoCloser
  depth_le : v.depth ≤ maxDepth

theorem canonical_iff {v : Value} :
    v.Canonical ↔ (∀ node ∈ v.nodes, node.WellSpelt ∧ node.HoldsNoCloser) ∧ v.depth ≤ maxDepth :=
  ⟨fun h => ⟨fun node hnode => ⟨h.wellSpelt node hnode, h.holdsNoCloser node hnode⟩, h.depth_le⟩,
    fun h => ⟨fun node hnode => (h.1 node hnode).1, fun node hnode => (h.1 node hnode).2, h.2⟩⟩

instance (v : Value) : Decidable v.Canonical := decidable_of_iff _ canonical_iff.symm

/-! ## 1. From a value to a derivation -/

theorem derives_of_children {v : Value} {bracket : Bracket} {levels : Nat}
    (hbracket : v.bracket? = some bracket) (hinserted : v.Inserted)
    (hchildren : ∀ child ∈ v.children, Derives levels child.tokens child)
    (hcloser : ∀ child ∈ v.children, child.tokens.head? ≠ some bracket.closer) :
    Derives (levels + 1) v.tokens v := by
  -- Each child is a piece of its own, so that the row of pieces is the row of children.
  have hpieces : ∀ piece ∈ v.children.map fun child => Piece.mk child.tokens child,
      Derives levels piece.segment piece.value := List.forall_mem_map.mpr hchildren
  have hheads : ∀ piece ∈ v.children.map fun child => Piece.mk child.tokens child,
      piece.segment.head? ≠ some bracket.closer := List.forall_mem_map.mpr hcloser
  have hsegments : segments (v.children.map fun child => Piece.mk child.tokens child)
      = v.children.flatMap tokens := by
    rw [segments, List.flatMap_map]
  have hvalues : values (v.children.map fun child => Piece.mk child.tokens child)
      = v.children := by
    rw [values, List.map_map]
    exact List.map_id _
  rw [tokens_of_bracket? hbracket, ← hsegments]
  cases v with
  | list items =>
    cases hbracket
    have hderives := Derives.sequence .list hpieces hheads
    rw [hvalues] at hderives
    exact hderives
  | vector items =>
    cases hbracket
    have hderives := Derives.sequence .vector hpieces hheads
    rw [hvalues] at hderives
    exact hderives
  | mapping entries =>
    cases hbracket
    rcases hinserted entries rfl with ⟨pairs, hpairs⟩
    -- The entries are in order, so inserting them once more gives the same mapping.
    have hentries : (Mapping.ofList entries).entries = entries := by
      apply Mapping.entries_ofList
      rw [hpairs]
      exact Mapping.ascending_ofList pairs
    have hderives := Derives.mapping hpieces hheads hvalues
    rw [Mapping.toValue, hentries] at hderives
    exact hderives
  | number => cases hbracket
  | string => cases hbracket
  | symbol => cases hbracket

theorem derives_tokens (v : Value) : v.Built → (∀ node ∈ v.nodes, node.WellSpelt) →
    (∀ node ∈ v.nodes, node.HoldsNoCloser) → ∀ levels, v.depth ≤ levels →
    Derives levels v.tokens v := by
  induction v using induction_on_children with
  | step v ih =>
    intro hbuilt hspelt hcloser levels hdepth
    rcases forall_mem_nodes_iff.mp hbuilt with ⟨hinserted, hbuilts⟩
    rcases forall_mem_nodes_iff.mp hspelt with ⟨hv, hspelts⟩
    rcases forall_mem_nodes_iff.mp hcloser with ⟨hnone, hclosers⟩
    have hpos := v.depth_pos
    obtain ⟨n, rfl⟩ : ∃ n, levels = n + 1 := ⟨levels - 1, by omega⟩
    cases hbracket : v.bracket? with
    | none =>
      rw [tokens_of_atom hbracket]
      exact .atom (hv.notMem_announcers hbracket) (hv.ofAtom?_display hbracket)
    | some bracket =>
      refine derives_of_children hbracket hinserted (fun child hchild => ?_)
        fun child hchild hhead => ?_
      · exact ih child hchild (hbuilts child hchild) (hspelts child hchild) (hclosers child hchild)
          n (depth_le_iff.mp hdepth child hchild)
      · -- Only the symbol of the closing bracket could start with it.
        have hchildspelt := hspelts child hchild child child.mem_nodes_self
        rw [hchildspelt.eq_symbol_of_head? hhead] at hchild
        exact hnone bracket hbracket hchild

/-! ## 2. From a derivation to a value -/

theorem tokens_unmarked (v : Value) :
    (∀ node ∈ v.nodes, node.WellSpelt) → ∀ token ∈ v.tokens, token ∉ Token.marks := by
  induction v using induction_on_children with
  | step v ih =>
    intro hspelt token htoken
    rcases forall_mem_nodes_iff.mp hspelt with ⟨hv, hspelts⟩
    cases hbracket : v.bracket? with
    | none =>
      rw [tokens_of_atom hbracket, List.mem_singleton] at htoken
      have hmarks : ∀ token ∈ Token.marks, token ∈ Token.announcers := by decide
      rw [htoken]
      exact fun hmem => hv.notMem_announcers hbracket (hmarks _ hmem)
    | some bracket =>
      have hbrackets : bracket.opener ∉ Token.marks ∧ bracket.closer ∉ Token.marks := by
        cases bracket <;> decide
      rw [tokens_of_bracket? hbracket, Bracket.enclose, List.mem_cons, List.mem_append,
        List.mem_singleton, List.mem_flatMap] at htoken
      rcases htoken with hopener | ⟨child, hchild, htoken⟩ | hcloser
      · rw [hopener]
        exact hbrackets.1
      · exact ih child hchild (hspelts child hchild) token htoken
      · rw [hcloser]
        exact hbrackets.2

end Value

namespace Reader

open Value (HoldsNoCloser forall_mem_nodes_iff forall_mem_nodes_atom depth_le_iff)

/-- Every level of the value is a bracket or a mark among the tokens, if there is no metadata. -/
theorem Derives.depth_le {levels : Nat} {segment : List Token} {value : Value}
    (h : Derives levels segment value) (hsegment : ∀ token ∈ segment, token ≠ metadataMark) :
    value.depth ≤ levels := by
  induction h with
  | sequence shape _ _ ih =>
    apply depth_le_iff.mpr
    rw [Value.children_sequence]
    exact List.forall_mem_map.mpr fun piece hpiece =>
      ih piece hpiece (forall_mem_piece hsegment piece hpiece)
  | mapping _ _ hpairs ih =>
    apply depth_le_iff.mpr
    exact forall_mem_children_toValue hpairs fun piece hpiece =>
      ih piece hpiece (forall_mem_piece hsegment piece hpiece)
  | abbreviation sigil hform ih =>
    -- The name in the list is one level deep, and the form behind the mark needs a level anyway.
    have hvalue := ih fun token htoken => hsegment token (List.mem_cons_of_mem _ htoken)
    have hname : (Value.symbol sigil.name).depth ≤ _ := hform.levels_pos
    exact depth_le_iff.mpr
      (List.forall_mem_cons.mpr ⟨hname, List.forall_mem_singleton.mpr hvalue⟩)
  | description => exact absurd rfl (hsegment metadataMark List.mem_cons_self)
  | number => exact depth_le_iff.mpr (List.forall_mem_nil _)
  | string => exact depth_le_iff.mpr (List.forall_mem_nil _)
  | symbol => exact depth_le_iff.mpr (List.forall_mem_nil _)

/-- Every container has been read between brackets, if there are no marks. -/
theorem Derives.holdsNoCloser {levels : Nat} {segment : List Token} {value : Value}
    (h : Derives levels segment value) (hsegment : ∀ token ∈ segment, token ∉ Token.marks) :
    ∀ node ∈ value.nodes, node.HoldsNoCloser := by
  induction h with
  | sequence shape hpieces hcloser ih =>
    refine forall_mem_nodes_iff.mpr
      ⟨holdsNoCloser_sequence (closer_notMem_values hpieces hcloser), ?_⟩
    rw [Value.children_sequence]
    exact List.forall_mem_map.mpr fun piece hpiece =>
      ih piece hpiece (forall_mem_piece hsegment piece hpiece)
  | mapping hpieces hcloser hpairs ih =>
    refine forall_mem_nodes_iff.mpr ⟨holdsNoCloser_toValue hpieces hcloser hpairs, ?_⟩
    exact forall_mem_children_toValue hpairs fun piece hpiece =>
      ih piece hpiece (forall_mem_piece hsegment piece hpiece)
  | abbreviation sigil =>
    have hmark : sigil.token ∈ Token.marks := by cases sigil <;> decide
    exact absurd hmark (hsegment _ List.mem_cons_self)
  | description => exact absurd (by decide) (hsegment metadataMark List.mem_cons_self)
  | number => exact forall_mem_nodes_atom rfl (.of_atom rfl)
  | string => exact forall_mem_nodes_atom rfl (.of_atom rfl)
  | symbol => exact forall_mem_nodes_atom rfl (.of_atom rfl)

end Reader

/-! ## 3. Reading what has been written -/

namespace Value

open Token (tokenize)

theorem MarksCloser.not_holdsNoCloser {v : Value} (h : v.MarksCloser) : ¬ v.HoldsNoCloser := by
  intro hcloser
  -- In both lists `)` comes right after the name.
  rcases h with ⟨sigil, rfl⟩ | ⟨entries, rfl⟩
  · exact hcloser .round rfl (List.mem_cons_of_mem _ List.mem_cons_self)
  · exact hcloser .round rfl (List.mem_cons_of_mem _ List.mem_cons_self)

theorem read_display_of_canonical {v : Value} (hbuilt : v.Built) (h : v.Canonical) :
    read v.display = .ok v := by
  have hderives := derives_tokens v hbuilt h.wellSpelt h.holdsNoCloser maxDepth h.depth_le
  refine Reader.read_eq_ok_iff.mpr ⟨v.tokens, [], ?_, hderives⟩
  rw [tokenize_display h.wellSpelt, List.append_nil]

/-- Whatever is read from a written form has been read without marks. -/
theorem canonical_of_read_written {v w : Value} (hspelt : ∀ node ∈ v.nodes, node.WellSpelt)
    (h : read v.display = .ok w) : w.Built ∧ w.Canonical := by
  have hreadable := allReadable_of_read h
  -- The tokens of the written form have no marks, and a part of them derives the value.
  rcases Reader.read_eq_ok_iff.mp h with ⟨segment, rest, htokens, hderives⟩
  rw [tokenize_display hspelt] at htokens
  have hmarks : ∀ token ∈ segment, token ∉ Token.marks := by
    intro token htoken
    apply tokens_unmarked v hspelt
    rw [htokens]
    exact List.mem_append_left _ htoken
  have hdepth : w.depth ≤ maxDepth := by
    apply hderives.depth_le
    intro token htoken hmetadata
    rw [hmetadata] at htoken
    exact hmarks metadataMark htoken (by decide)
  exact ⟨fun node hnode => (hreadable node hnode).inserted, hreadable.wellSpelt,
    hderives.holdsNoCloser hmarks, hdepth⟩

theorem canonical_of_read_display {v : Value} (h : read v.display = .ok v) :
    v.Built ∧ v.Canonical :=
  canonical_of_read_written (allReadable_of_read h).wellSpelt h

theorem read_display_iff {v : Value} : read v.display = .ok v ↔ v.Built ∧ v.Canonical :=
  ⟨canonical_of_read_display, fun h => read_display_of_canonical h.1 h.2⟩

/-- Only metadata can make a value nest more deeply than it is read. -/
theorem metadataMark_mem_of_read {text : Text} {v : Value} (h : read text = .ok v)
    (hdepth : maxDepth < v.depth) : metadataMark ∈ tokenize text := by
  rcases Reader.read_eq_ok_iff.mp h with ⟨segment, rest, htokens, hderives⟩
  apply Decidable.byContradiction
  intro hnone
  apply Nat.not_le.mpr hdepth
  apply hderives.depth_le
  intro token htoken hmetadata
  apply hnone
  rw [htokens, ← hmetadata]
  exact List.mem_append_left _ htoken

/-- A value is read back from its written form exactly if it is canonical, its mappings being made
by insertion.  Of the values that are read, those and only those are not read back in which a mark
stands in front of a `)` that closes nothing, or which metadata has made too deep. -/
theorem read_display_iff_canonical :
    (∀ v : Value, read v.display = .ok v ↔ v.Built ∧ v.Canonical) ∧
    ∀ (text : Text) (v : Value), read text = .ok v →
      (read v.display ≠ .ok v ↔ (∃ node ∈ v.nodes, node.MarksCloser) ∨ maxDepth < v.depth) ∧
      (maxDepth < v.depth → metadataMark ∈ tokenize text) := by
  refine ⟨fun v => read_display_iff, fun text v h => ⟨?_, metadataMark_mem_of_read h⟩⟩
  have hreadable := allReadable_of_read h
  constructor
  · intro hread
    by_cases hmarks : ∃ node ∈ v.nodes, node.MarksCloser
    · exact .inl hmarks
    · right
      apply Nat.lt_of_not_le
      intro hdepth
      apply hread
      apply read_display_of_canonical fun node hnode => (hreadable node hnode).inserted
      refine ⟨hreadable.wellSpelt, fun node hnode => ?_, hdepth⟩
      apply (hreadable node hnode).holdsNoCloser.resolve_right
      exact fun hmarked => hmarks ⟨node, hnode, hmarked⟩
  · intro hcause hread
    have hcanonical := (read_display_iff.mp hread).2
    rcases hcause with ⟨node, hnode, hmarks⟩ | hdepth
    · exact hmarks.not_holdsNoCloser (hcanonical.holdsNoCloser node hnode)
    · exact absurd hcanonical.depth_le (Nat.not_le.mpr hdepth)

example : ¬ (symbol "42".toList).Canonical := by decide

example : (vector [symbol "a".toList, list [], symbol [')']]).Canonical := by decide

/-- `')` is read as a list that holds `)`, and that list is not read back. -/
theorem read_display_quoted_closer :
    read ['\x27', ')'] = .ok (.call Sigil.quote.name [.symbol [')']]) ∧
      read (call Sigil.quote.name [.symbol [')']]).display
        ≠ .ok (call Sigil.quote.name [.symbol [')']]) := by
  have hread : read ['\x27', ')'] = .ok (call Sigil.quote.name [.symbol [')']]) := by rfl
  refine ⟨hread, (read_display_iff_canonical.2 _ _ hread).1.mpr (.inl ?_)⟩
  exact ⟨_, mem_nodes_self _, .inl ⟨.quote, rfl⟩⟩

end Value

end LispForms
