import LispForms.Proofs.Reader.Part
import LispForms.Proofs.RoundTrip

/-!
# Depth — what is read, and how deeply it can be nested

The reader counts the forms that are open, not the levels of the value that it builds.  Most forms
bring one level for each that is counted; metadata brings two, the list and the mapping in it.  So
what is read with `n` levels has a depth below `2 * n`, and forms in the metadata of forms get
there.

Main statement: `read_shape`, on every value inside a value that is read.
-/

namespace LispForms

namespace Value

theorem depth_symbol (name : Text) : (symbol name).depth = 1 := rfl

theorem depth_of_atom {v : Value} (hatom : v.bracket? = none) : v.depth = 1 := by
  rw [depth_eq, children_eq_nil hatom]
  rfl

theorem depth_call_one (name : Text) (value : Value) :
    (call name [value]).depth = 1 + max 1 value.depth := by
  rw [depth_eq]
  show 1 + max 1 (max value.depth 0) = _
  rw [Nat.max_zero]

theorem depth_call_two (name : Text) (value value' : Value) :
    (call name [value, value']).depth = 1 + max 1 (max value.depth value'.depth) := by
  rw [depth_eq]
  show 1 + max 1 (max value.depth (max value'.depth 0)) = _
  rw [Nat.max_zero]

theorem depth_mapping_singleton (key value : Value) :
    (Mapping.ofList [(key, value)]).toValue.depth = 1 + max key.depth value.depth := by
  rw [depth_eq]
  show 1 + max key.depth (max value.depth 0) = _
  rw [Nat.max_zero]

end Value

namespace Reader

open Token (AtDelimiter tokenize)
open Value (depth_call_one depth_call_two depth_le_iff depth_mapping_singleton depth_of_atom
  depth_symbol)

/-! ## 1. A bound -/

/-- The entries of a mapping are no deeper than the forms that it has been made of. -/
theorem depth_toValue_le {pieces : List Piece} {pairs : List (Value × Value)} {n : Nat}
    (hpairs : values pieces = Value.keysAndValues pairs)
    (h : ∀ piece ∈ pieces, piece.value.depth ≤ n) :
    (Mapping.ofList pairs).toValue.depth ≤ n + 1 :=
  depth_le_iff.mpr (forall_mem_children_toValue hpairs h)

theorem Derives.depth_lt {levels : Nat} {segment : List Token} {value : Value}
    (h : Derives levels segment value) : value.depth < 2 * levels := by
  induction h with
  | @sequence levels pieces shape _ _ ih =>
    have hdepth : (Value.sequence shape (values pieces)).depth ≤ 2 * levels + 1 := by
      apply depth_le_iff.mpr
      rw [Value.children_sequence]
      exact List.forall_mem_map.mpr fun piece hpiece => Nat.le_of_lt (ih piece hpiece)
    omega
  | mapping _ _ hpairs ih =>
    have hdepth := depth_toValue_le hpairs fun piece hpiece => Nat.le_of_lt (ih piece hpiece)
    omega
  | abbreviation sigil hform ih =>
    have hpos := hform.levels_pos
    rw [depth_call_one]
    omega
  | description _ _ hpairs hform ih ihform =>
    -- The mapping stands in a list of its own, two levels above its entries.
    have hpos := hform.levels_pos
    have hmetadata := depth_toValue_le hpairs fun piece hpiece =>
      Nat.le_sub_one_of_lt (ih piece hpiece)
    rw [depth_call_two]
    omega
  | number =>
    rw [depth_of_atom rfl]
    omega
  | string =>
    rw [depth_of_atom rfl]
    omega
  | symbol =>
    rw [depth_of_atom rfl]
    omega

/-! ## 2. Texts that get there -/

/-- The tokens of the text, in front of any delimiter. -/
def Spells (text : Text) (tokens : List Token) : Prop :=
  ∀ rest, AtDelimiter rest → tokenize (text ++ rest) = tokens ++ tokenize rest

theorem Spells.tokenize_eq {text : Text} {tokens : List Token} (h : Spells text tokens) :
    tokenize text = tokens := by
  have hend := h [] Token.atDelimiter_nil
  rwa [List.append_nil, show tokenize [] = [] from rfl, List.append_nil] at hend

theorem tokenize_loneMark {c : Char} (hc : c ∈ Token.loneMarks) (htilde : c ≠ '~') (rest : Text) :
    tokenize (c :: rest) = [c] :: tokenize rest :=
  Token.tokenize_mark hc fun h => absurd h htilde

theorem spells_letter : Spells ['a'] [['a']] := fun _ hrest =>
  Token.tokenize_name (by decide) hrest

theorem derives_letter (levels : Nat) : Derives (levels + 1) [['a']] (.symbol ['a']) :=
  .symbol (by decide) (by decide) (by decide)

/-- Marks in front of each other nest as deeply as there are levels. -/
theorem exists_quoted (n : Nat) : ∃ text tokens value, Spells text tokens ∧
    metadataMark ∉ tokens ∧ Derives (n + 1) tokens value ∧ value.depth = n + 1 := by
  induction n with
  | zero =>
    exact ⟨['a'], [['a']], .symbol ['a'], spells_letter, by decide, derives_letter 0, rfl⟩
  | succ n ih =>
    rcases ih with ⟨text, tokens, value, htext, hmark, hderives, hdepth⟩
    refine ⟨'\x27' :: text, Sigil.quote.token :: tokens, .call Sigil.quote.name [value],
      fun rest hrest => ?_, ?_, .abbreviation .quote hderives, ?_⟩
    · rw [List.cons_append, tokenize_loneMark (by decide) (by decide), htext rest hrest]
      rfl
    · intro hmem
      rcases List.mem_cons.mp hmem with hquote | hmem
      · exact absurd hquote (by decide)
      · exact hmark hmem
    · rw [depth_call_one, hdepth]
      omega

theorem spells_described {text : Text} {tokens : List Token} (h : Spells text tokens) :
    Spells ("^\x7ba ".toList ++ text ++ "\x7da".toList)
      (metadataMark :: (Bracket.curly.enclose (['a'] :: tokens) ++ [['a']])) := by
  intro rest hrest
  have hsplit : "^\x7ba ".toList ++ text ++ "\x7da".toList ++ rest
      = '^' :: Bracket.curly.opening ::
          (['a'] ++ ' ' :: (text ++ Bracket.curly.closing :: (['a'] ++ rest))) := by
    simp [Bracket.opening, Bracket.closing]
  rw [hsplit, tokenize_loneMark (by decide) (by decide), Bracket.tokenize_opening,
    spells_letter _ (Token.atDelimiter_cons.2 (by decide)), Token.tokenize_separator (by decide),
    h _ (Bracket.curly.atDelimiter_closing _), Bracket.tokenize_closing, spells_letter rest hrest]
  simp [Bracket.enclose, metadataMark]

/-- Forms in the metadata of forms nest twice as deeply as there are levels, less one. -/
theorem exists_described (n : Nat) : ∃ text tokens value, Spells text tokens ∧
    tokens.head? ≠ some Bracket.curly.closer ∧ Derives (n + 1) tokens value ∧
    value.depth = 2 * n + 1 := by
  induction n with
  | zero =>
    exact ⟨['a'], [['a']], .symbol ['a'], spells_letter, by decide, derives_letter 0, rfl⟩
  | succ n ih =>
    rcases ih with ⟨text, tokens, value, htext, hhead, hderives, hdepth⟩
    have hpieces : ∀ piece ∈ [Piece.mk [['a']] (.symbol ['a']), Piece.mk tokens value],
        Derives (n + 1) piece.segment piece.value :=
      List.forall_mem_cons.mpr ⟨derives_letter n, List.forall_mem_singleton.mpr hderives⟩
    have hcloser : ∀ piece ∈ [Piece.mk [['a']] (.symbol ['a']), Piece.mk tokens value],
        piece.segment.head? ≠ some Bracket.curly.closer :=
      List.forall_mem_cons.mpr ⟨by decide, List.forall_mem_singleton.mpr hhead⟩
    have hpairs : values [Piece.mk [['a']] (.symbol ['a']), Piece.mk tokens value]
        = Value.keysAndValues [(.symbol ['a'], value)] := rfl
    have hdescribed := Derives.description hpieces hcloser hpairs (derives_letter n)
    have hsegments : segments [Piece.mk [['a']] (.symbol ['a']), Piece.mk tokens value]
        = ['a'] :: tokens := by simp [segments]
    rw [hsegments] at hdescribed
    have hmark : some metadataMark ≠ some Bracket.curly.closer := by decide
    refine ⟨_, _, _, spells_described htext, hmark, hdescribed, ?_⟩
    rw [depth_call_two, depth_mapping_singleton, depth_symbol, hdepth]
    omega

end Reader

/-! ## 3. Values that are read -/

open Token (tokenize)

theorem depth_le_of_read {text : Text} {v : Value} (h : read text = .ok v) : v.depth ≤ 1023 := by
  rcases Reader.read_eq_ok_iff.mp h with ⟨segment, rest, htokens, hderives⟩
  have hdepth : v.depth < 2 * 512 := hderives.depth_lt
  omega

theorem read_of_spells {text : Text} {tokens : List Token} {v : Value}
    (htext : Reader.Spells text tokens) (h : Reader.Derives maxDepth tokens v) :
    read text = .ok v :=
  Reader.read_eq_ok_iff.mpr ⟨tokens, [], by rw [htext.tokenize_eq, List.append_nil], h⟩

/-- A list in a value that is read holds `)` only where a mark has put it: behind the name of the
mark, which stands in front of the `)` in the text. -/
theorem mark_of_read {text : Text} {v : Value} (h : read text = .ok v)
    {items : List Value} {i : Nat} (hitems : .list items ∈ v.nodes)
    (hitem : items[i]? = some (.symbol Bracket.round.closer)) :
    i = 1 ∧ ∃ mark ∈ Token.markNames, items[0]? = some (.symbol mark.2) ∧
      ∃ part, part <:+: tokenize text ∧ part.head? = some mark.1 ∧
        Reader.Derives maxDepth part (.list items) := by
  rcases Reader.read_eq_ok_iff.mp h with ⟨segment, rest, htokens, hderives⟩
  rcases hderives.standsIn _ hitems with ⟨mark, -, hname⟩ | ⟨part, hpart, hlist⟩
  · cases hname
  · rcases hlist.mark_of_closer hitem with ⟨hi, mark, hmark, hhead, hname⟩
    refine ⟨hi, mark, hmark, hname, part, ?_, hhead, hlist⟩
    rw [htokens]
    exact hpart.trans (List.prefix_append _ _).isInfix

theorem symbol_wellSpelt_of_read {text : Text} {v : Value} (h : read text = .ok v) {name : Text}
    (hname : .symbol name ∈ v.nodes) :
    name ∈ Token.closers ∨ Token.IsName name ∧ Numeral.read? name = none :=
  (allReadable_of_read h _ hname).wellSpelt

theorem string_wellSpelt_of_read {text : Text} {v : Value} (h : read text = .ok v)
    {literal : Text} (hliteral : .string literal ∈ v.nodes) :
    Text.isStringLiteral literal = true ∧ Text.hidesLineFeed false literal = false :=
  (allReadable_of_read h _ hliteral).wellSpelt

/-- Only a list can hold the symbol that closes it. -/
theorem closer_notMem_of_read {text : Text} {v node : Value} (h : read text = .ok v)
    (hnode : node ∈ v.nodes) {bracket : Bracket} (hbracket : node.bracket? = some bracket)
    (hround : bracket ≠ .round) : .symbol bracket.closer ∉ node.children := by
  rcases (allReadable_of_read h node hnode).holdsNoCloser with hcloser | ⟨sigil, rfl⟩ | ⟨_, rfl⟩
  · exact hcloser bracket hbracket
  · exact absurd (Option.some.inj hbracket).symm hround
  · exact absurd (Option.some.inj hbracket).symm hround

theorem closer_notMem_mapping_of_read {text : Text} {v : Value} (h : read text = .ok v)
    {entries : List (Value × Value)} (hentries : .mapping entries ∈ v.nodes) :
    .symbol Bracket.curly.closer ∉ Value.keysAndValues entries := by
  have hbracket : (Value.mapping entries).bracket? = some .curly := rfl
  exact closer_notMem_of_read h hentries hbracket (by decide)

/-- Inside a value that is read every symbol is a closing bracket or a name that no number has, and
every string a literal without a hidden line feed.  No vector holds `]` and no mapping `}`; a list
holds `)` only behind the name of a mark, and then some tokens of the text, that mark in front, are
the form that denotes the list.  The value has 1023 levels at most, and 512 without metadata; and
there are values with as many. -/
theorem read_shape :
    (∀ (text : Text) (v : Value), read text = .ok v →
      (∀ name, .symbol name ∈ v.nodes →
        name ∈ Token.closers ∨ Token.IsName name ∧ Numeral.read? name = none) ∧
      (∀ literal, .string literal ∈ v.nodes →
        Text.isStringLiteral literal = true ∧ Text.hidesLineFeed false literal = false) ∧
      (∀ items, .vector items ∈ v.nodes → .symbol Bracket.square.closer ∉ items) ∧
      (∀ entries, .mapping entries ∈ v.nodes → ∀ entry ∈ entries,
        entry.1 ≠ .symbol Bracket.curly.closer ∧ entry.2 ≠ .symbol Bracket.curly.closer) ∧
      (∀ items i, .list items ∈ v.nodes → items[i]? = some (.symbol Bracket.round.closer) →
        i = 1 ∧ ∃ mark ∈ Token.markNames, items[0]? = some (.symbol mark.2) ∧
          ∃ part, part <:+: tokenize text ∧ part.head? = some mark.1 ∧
            Reader.Derives maxDepth part (.list items)) ∧
      v.depth ≤ 1023 ∧ (metadataMark ∉ tokenize text → v.depth ≤ 512)) ∧
    (∃ text v, read text = .ok v ∧ v.depth = 1023) ∧
    ∃ text v, read text = .ok v ∧ metadataMark ∉ tokenize text ∧ v.depth = 512 := by
  refine ⟨fun text v h => ⟨fun name => symbol_wellSpelt_of_read h,
    fun literal => string_wellSpelt_of_read h, fun items hitems => ?_,
    fun entries hentries entry hentry => ⟨fun hkey => ?_, fun hvalue => ?_⟩,
    fun items i => mark_of_read h, depth_le_of_read h, fun hmark => ?_⟩, ?_, ?_⟩
  · have hbracket : (Value.vector items).bracket? = some .square := rfl
    exact closer_notMem_of_read h hitems hbracket (by decide)
  · apply closer_notMem_mapping_of_read h hentries
    exact Value.mem_keysAndValues.mpr ⟨entry, hentry, .inl hkey.symm⟩
  · apply closer_notMem_mapping_of_read h hentries
    exact Value.mem_keysAndValues.mpr ⟨entry, hentry, .inr hvalue.symm⟩
  · exact Nat.not_lt.mp fun hdepth => hmark (Value.metadataMark_mem_of_read h hdepth)
  · rcases Reader.exists_described 511 with ⟨text, tokens, v, htext, -, hderives, hdepth⟩
    exact ⟨text, v, read_of_spells htext hderives, hdepth⟩
  · rcases Reader.exists_quoted 511 with ⟨text, tokens, v, htext, hmark, hderives, hdepth⟩
    refine ⟨text, v, read_of_spells htext hderives, ?_, hdepth⟩
    rwa [htext.tokenize_eq]

/-- `')` is read as a list of two levels that holds `)`, and the two tokens are its form. -/
theorem read_shape_quoted_closer :
    read ['\x27', ')'] = .ok (.call Sigil.quote.name [.symbol [')']]) ∧
      (∃ mark ∈ Token.markNames, Sigil.quote.name = mark.2 ∧
        ∃ part, part <:+: tokenize ['\x27', ')'] ∧ part.head? = some mark.1 ∧
          Reader.Derives maxDepth part (.call Sigil.quote.name [.symbol [')']])) ∧
      metadataMark ∉ tokenize ['\x27', ')'] ∧
      (Value.call Sigil.quote.name [.symbol [')']]).depth ≤ 512 := by
  have hread : read ['\x27', ')'] = .ok (.call Sigil.quote.name [.symbol [')']]) := by rfl
  have hmark : metadataMark ∉ tokenize ['\x27', ')'] := by decide
  rcases read_shape.1 _ _ hread with ⟨-, -, -, -, hlists, -, hdepth⟩
  rcases hlists _ 1 (Value.mem_nodes_self _) rfl with ⟨-, mark, hmem, hname, hpart⟩
  exact ⟨hread, ⟨mark, hmem, Value.symbol.inj (Option.some.inj hname), hpart⟩, hmark, hdepth hmark⟩

end LispForms
