import LispForms.Proofs.Mapping.Order
import LispForms.Proofs.Reader.Acceptance
import LispForms.Proofs.Token.Cut
import LispForms.Proofs.Value.Spelling

/-!
# Shape — what the values that are read are like

Everything inside a value that is read is spelt as the tokens of some text are, its mappings are
made by insertion, and no bracket holds the symbol that would close it.  There is one exception: a
mark turns the form after it into a list without reading a bracket, so that list may hold `)`.
-/

namespace LispForms

namespace Value

/-- No child of a container is the symbol of the bracket that closes it. -/
def HoldsNoCloser (v : Value) : Prop :=
  ∀ bracket, v.bracket? = some bracket → .symbol bracket.closer ∉ v.children

instance (v : Value) : Decidable v.HoldsNoCloser :=
  inferInstanceAs (Decidable (∀ bracket ∈ v.bracket?, .symbol bracket.closer ∉ v.children))

/-- The value is what a mark, or metadata, makes of the symbol `)`. -/
def MarksCloser (v : Value) : Prop :=
  (∃ sigil : Sigil, v = call sigil.name [.symbol Bracket.round.closer]) ∨
    ∃ entries, v = call metadataName [.symbol Bracket.round.closer, .mapping entries]

/-- The entries of a mapping have been inserted into it one after the other. -/
def Inserted (v : Value) : Prop :=
  ∀ entries, v = .mapping entries → ∃ pairs, entries = (Mapping.ofList pairs).entries

/-- What each value inside a value that is read is like. -/
structure Readable (v : Value) : Prop where
  wellSpelt : v.WellSpelt
  inserted : v.Inserted
  holdsNoCloser : v.HoldsNoCloser ∨ v.MarksCloser

def AllReadable (v : Value) : Prop := ∀ node ∈ v.nodes, node.Readable

theorem AllReadable.wellSpelt {v : Value} (h : v.AllReadable) : ∀ node ∈ v.nodes, node.WellSpelt :=
  fun node hnode => (h node hnode).wellSpelt

theorem AllReadable.readable {v : Value} (h : v.AllReadable) : v.Readable := h v v.mem_nodes_self

theorem AllReadable.children {v : Value} (h : v.AllReadable) :
    ∀ child ∈ v.children, child.AllReadable :=
  (forall_mem_nodes_iff.mp h).2

theorem HoldsNoCloser.of_atom {v : Value} (hatom : v.bracket? = none) : v.HoldsNoCloser := by
  intro bracket hbracket
  rw [hatom] at hbracket
  cases hbracket

theorem Readable.of_atom {v : Value} (hatom : v.bracket? = none) (h : v.WellSpelt) :
    v.Readable := by
  refine ⟨h, ?_, .inl (.of_atom hatom)⟩
  intro entries hmapping
  rw [hmapping] at hatom
  cases hatom

theorem Readable.of_call {name : Text} {arguments : List Value}
    (h : (call name arguments).HoldsNoCloser ∨ (call name arguments).MarksCloser) :
    (call name arguments).Readable :=
  ⟨trivial, fun _ hmapping => (nomatch hmapping), h⟩

/-- The first child of a container never is the symbol that would close it. -/
theorem Readable.head?_children_ne {v : Value} {bracket : Bracket} (h : v.Readable)
    (hbracket : v.bracket? = some bracket) :
    v.children.head? ≠ some (.symbol bracket.closer) := by
  intro hhead
  -- Where a mark has made the list, its first child is the name of the mark.
  rcases h.holdsNoCloser with hcloser | ⟨sigil, rfl⟩ | ⟨entries, rfl⟩
  · exact hcloser bracket hbracket (List.mem_of_mem_head? hhead)
  · cases hbracket
    cases sigil <;> cases hhead
  · cases hbracket
    cases hhead

end Value

namespace Reader

open Token (Lexeme)
open Value (Readable forall_mem_nodes_iff forall_mem_nodes_atom)

/-! ## 1. Atoms and names -/

theorem wellSpelt_symbol {token : Token} {rest : Text} (h : Lexeme token rest)
    (htoken : token ∉ Token.announcers) (hnumber : Numeral.read? token = none)
    (hquote : Text.startsWithQuote token = false) : (Value.symbol token).WellSpelt := by
  cases h with
  | spliceUnquote => exact absurd (by decide) htoken
  | @mark c _ hc _ =>
    have hmarks : ∀ c ∈ Token.loneMarks, [c] ∉ Token.announcers → [c] ∈ Token.closers :=
      Token.forall_mem_of_all (by decide)
    exact .inl (hmarks c hc htoken)
  | closedString => cases hquote
  | openString => cases hquote
  | bare hname => exact .inr ⟨hname, hnumber⟩

theorem wellSpelt_sigil (sigil : Sigil) : (Value.symbol sigil.name).WellSpelt := by
  cases sigil <;> decide

theorem wellSpelt_metadata : (Value.symbol metadataName).WellSpelt := by decide

/-! ## 2. Forms in a row -/

theorem closer_notMem_values {levels : Nat} {pieces : List Piece} {bracket : Bracket}
    (hpieces : ∀ piece ∈ pieces, Derives levels piece.segment piece.value)
    (hcloser : ∀ piece ∈ pieces, piece.segment.head? ≠ some bracket.closer) :
    .symbol bracket.closer ∉ values pieces := by
  intro hmem
  rcases List.mem_map.mp hmem with ⟨piece, hpiece, hvalue⟩
  have hderives := hpieces piece hpiece
  rw [hvalue] at hderives
  apply hcloser piece hpiece
  rw [hderives.segment_of_symbol]
  rfl

theorem forall_mem_piece {p : Token → Prop} {bracket : Bracket} {pieces : List Piece}
    (h : ∀ token ∈ bracket.enclose (segments pieces), p token) :
    ∀ piece ∈ pieces, ∀ token ∈ piece.segment, p token := by
  intro piece hpiece token htoken
  apply h
  apply List.mem_cons_of_mem
  apply List.mem_append_left
  exact List.mem_flatMap.mpr ⟨piece, hpiece, htoken⟩

theorem mem_children_toValue {pairs : List (Value × Value)} {child : Value}
    (h : child ∈ (Mapping.ofList pairs).toValue.children) : child ∈ Value.keysAndValues pairs := by
  rcases Value.mem_keysAndValues.mp h with ⟨entry, hentry, hchild⟩
  exact Value.mem_keysAndValues.mpr ⟨entry, Mapping.mem_of_mem_ofList hentry, hchild⟩

theorem forall_mem_children_toValue {p : Value → Prop} {pieces : List Piece}
    {pairs : List (Value × Value)} (hpairs : values pieces = Value.keysAndValues pairs)
    (h : ∀ piece ∈ pieces, p piece.value) :
    ∀ child ∈ (Mapping.ofList pairs).toValue.children, p child := by
  intro child hchild
  have hmem := mem_children_toValue hchild
  rw [← hpairs] at hmem
  rcases List.mem_map.mp hmem with ⟨piece, hpiece, rfl⟩
  exact h piece hpiece

theorem holdsNoCloser_sequence {shape : Shape} {items : List Value}
    (h : .symbol shape.bracket.closer ∉ items) : (Value.sequence shape items).HoldsNoCloser := by
  intro bracket hbracket
  rw [Value.bracket?_sequence] at hbracket
  cases hbracket
  rw [Value.children_sequence]
  exact h

theorem holdsNoCloser_toValue {levels : Nat} {pieces : List Piece} {pairs : List (Value × Value)}
    (hpieces : ∀ piece ∈ pieces, Derives levels piece.segment piece.value)
    (hcloser : ∀ piece ∈ pieces, piece.segment.head? ≠ some Bracket.curly.closer)
    (hpairs : values pieces = Value.keysAndValues pairs) :
    (Mapping.ofList pairs).toValue.HoldsNoCloser := by
  rintro bracket ⟨⟩ hmem
  have hvalues := mem_children_toValue hmem
  rw [← hpairs] at hvalues
  exact closer_notMem_values hpieces hcloser hvalues

/-! ## 3. Every form -/

theorem readable_sequence {shape : Shape} {items : List Value}
    (h : .symbol shape.bracket.closer ∉ items) : (Value.sequence shape items).Readable := by
  have hcloser := holdsNoCloser_sequence h
  cases shape with
  | list => exact ⟨trivial, fun _ hmapping => (nomatch hmapping), .inl hcloser⟩
  | vector => exact ⟨trivial, fun _ hmapping => (nomatch hmapping), .inl hcloser⟩

theorem readable_toValue {pairs : List (Value × Value)}
    (h : (Mapping.ofList pairs).toValue.HoldsNoCloser) :
    (Mapping.ofList pairs).toValue.Readable := by
  refine ⟨trivial, ?_, .inl h⟩
  rintro entries ⟨⟩
  exact ⟨pairs, rfl⟩

theorem readable_abbreviation (sigil : Sigil) (value : Value) :
    (Value.call sigil.name [value]).Readable := by
  apply Readable.of_call
  -- The list holds a closer only if the mark stands in front of one.
  by_cases hvalue : value = .symbol Bracket.round.closer
  · rw [hvalue]
    exact .inr (.inl ⟨sigil, rfl⟩)
  · left
    rintro bracket ⟨⟩ hmem
    rcases List.mem_cons.mp hmem with hname | hmem
    · cases sigil <;> cases hname
    · exact hvalue (List.mem_singleton.mp hmem).symm

theorem readable_description (value : Value) (entries : List (Value × Value)) :
    (Value.call metadataName [value, .mapping entries]).Readable := by
  apply Readable.of_call
  by_cases hvalue : value = .symbol Bracket.round.closer
  · rw [hvalue]
    exact .inr (.inr ⟨entries, rfl⟩)
  · left
    rintro bracket ⟨⟩ hmem
    rcases List.mem_cons.mp hmem with hname | hmem
    · cases hname
    · rcases List.mem_cons.mp hmem with hcloser | hmem
      · exact hvalue hcloser.symm
      · cases List.mem_singleton.mp hmem

theorem allReadable_toValue {levels : Nat} {pieces : List Piece} {pairs : List (Value × Value)}
    (hpieces : ∀ piece ∈ pieces, Derives levels piece.segment piece.value)
    (hcloser : ∀ piece ∈ pieces, piece.segment.head? ≠ some Bracket.curly.closer)
    (hpairs : values pieces = Value.keysAndValues pairs)
    (h : ∀ piece ∈ pieces, piece.value.AllReadable) : (Mapping.ofList pairs).toValue.AllReadable :=
  forall_mem_nodes_iff.mpr ⟨readable_toValue (holdsNoCloser_toValue hpieces hcloser hpairs),
    forall_mem_children_toValue hpairs h⟩

theorem Derives.allReadable {levels : Nat} {segment : List Token} {value : Value}
    (h : Derives levels segment value) (hsegment : ∀ token ∈ segment, ∃ rest, Lexeme token rest) :
    value.AllReadable := by
  induction h with
  | @sequence _ pieces shape hpieces hcloser ih =>
    refine forall_mem_nodes_iff.mpr
      ⟨readable_sequence (closer_notMem_values hpieces hcloser), ?_⟩
    rw [Value.children_sequence]
    exact List.forall_mem_map.mpr fun piece hpiece =>
      ih piece hpiece (forall_mem_piece hsegment piece hpiece)
  | mapping hpieces hcloser hpairs ih =>
    exact allReadable_toValue hpieces hcloser hpairs fun piece hpiece =>
      ih piece hpiece (forall_mem_piece hsegment piece hpiece)
  | @abbreviation _ _ value sigil hform ih =>
    have hvalue := ih fun token htoken => hsegment token (List.mem_cons_of_mem _ htoken)
    refine forall_mem_nodes_iff.mpr ⟨readable_abbreviation sigil value, ?_⟩
    exact List.forall_mem_cons.mpr
      ⟨forall_mem_nodes_atom rfl (.of_atom rfl (wellSpelt_sigil sigil)),
        List.forall_mem_singleton.mpr hvalue⟩
  | @description _ pieces pairs segment value hpieces hcloser hpairs hform ih ihform =>
    have htokens : ∀ token ∈ Bracket.curly.enclose (segments pieces) ++ segment,
        ∃ rest, Lexeme token rest := fun token htoken =>
      hsegment token (List.mem_cons_of_mem _ htoken)
    have hbraces := (List.forall_mem_append.mp htokens).1
    have hvalue := ihform (List.forall_mem_append.mp htokens).2
    have hmapping := allReadable_toValue hpieces hcloser hpairs fun piece hpiece =>
      ih piece hpiece (forall_mem_piece hbraces piece hpiece)
    refine forall_mem_nodes_iff.mpr ⟨readable_description value _, ?_⟩
    exact List.forall_mem_cons.mpr
      ⟨forall_mem_nodes_atom rfl (.of_atom rfl wellSpelt_metadata),
        List.forall_mem_cons.mpr ⟨hvalue, List.forall_mem_singleton.mpr hmapping⟩⟩
  | number => exact forall_mem_nodes_atom rfl (.of_atom rfl trivial)
  | @string _ token _ _ hliteral =>
    -- A token that ends at its quote has been cut off there, so no line feed is hidden in it.
    rcases hsegment token List.mem_cons_self with ⟨rest, hlexeme⟩
    exact forall_mem_nodes_atom rfl
      (.of_atom rfl ⟨hliteral, hlexeme.hidesLineFeed_eq_false hliteral⟩)
  | @symbol _ token htoken hnumber hquote =>
    rcases hsegment token List.mem_cons_self with ⟨rest, hlexeme⟩
    exact forall_mem_nodes_atom rfl
      (.of_atom rfl (wellSpelt_symbol hlexeme htoken hnumber hquote))

theorem Derives.allReadable_of_mem {levels : Nat} {segment : List Token} {value : Value}
    (h : Derives levels segment value) {text : Text}
    (hsegment : ∀ token ∈ segment, token ∈ Token.tokenize text) : value.AllReadable :=
  h.allReadable fun token htoken =>
    (Token.cut_tokenize text).lexeme_of_mem token (hsegment token htoken)

end Reader

theorem allReadable_of_read {text : Text} {value : Value} (h : read text = .ok value) :
    value.AllReadable := by
  rcases Reader.read_eq_ok_iff.mp h with ⟨segment, rest, htokens, hderives⟩
  have hmem : ∀ token ∈ segment, token ∈ Token.tokenize text := by
    intro token htoken
    rw [htokens]
    exact List.mem_append_left _ htoken
  exact hderives.allReadable_of_mem hmem

theorem allReadable_of_readForm {text : Text} {position depth : Nat} {value : Value}
    {after : Cursor} (h : (Cursor.mk (Token.tokenize text) position depth).readForm
      = (.ok value, after)) : value.AllReadable := by
  rcases Reader.readForm_eq_ok h with ⟨segment, rest, htokens, hderives⟩
  have hmem : ∀ token ∈ segment, token ∈ Token.tokenize text := by
    intro token htoken
    apply List.mem_of_mem_drop (i := position)
    rw [htokens]
    exact List.mem_append_left _ htoken
  exact hderives.allReadable_of_mem hmem

end LispForms
