import LispForms.Proofs.Reader.Grammar
import LispForms.Proofs.Text.Delimited
import LispForms.Proofs.Token.Literal
import LispForms.Proofs.Value.Tree

/-!
# Spelling — the tokens of a written form

A value whose atoms are spelt as tokens is written as its tokens: each bracket and each atom is cut
off where it ends, whatever delimiter follows (`tokenize_display_append`).
-/

namespace LispForms

def Token.closers : List Token :=
  [Bracket.closer .round, Bracket.closer .square, Bracket.closer .curly]

theorem Token.mem_closers_iff {token : Token} :
    token ∈ Token.closers ↔ ∃ bracket : Bracket, token = bracket.closer := by
  constructor
  · intro h
    simp only [Token.closers, List.mem_cons, List.not_mem_nil, or_false] at h
    rcases h with rfl | rfl | rfl
    · exact ⟨.round, rfl⟩
    · exact ⟨.square, rfl⟩
    · exact ⟨.curly, rfl⟩
  · intro h
    rcases h with ⟨bracket, rfl⟩
    cases bracket <;> decide

theorem Numeral.read?_eq_none_of_startsWithQuote {text : Text}
    (h : Text.startsWithQuote text = true) : Numeral.read? text = none := by
  cases text with
  | nil => cases h
  | cons c rest =>
    have hc : c = '"' := by simpa [Text.startsWithQuote] using h
    rw [hc]
    rfl

theorem Bracket.tokenize_opening (bracket : Bracket) (rest : Text) :
    Token.tokenize (bracket.opening :: rest) = bracket.opener :: Token.tokenize rest := by
  have hmem : bracket.opening ∈ Token.loneMarks ∧ bracket.opening ≠ '~' := by
    cases bracket <;> decide
  exact Token.tokenize_mark hmem.1 fun h => absurd h hmem.2

theorem Bracket.closing_mem_loneMarks (bracket : Bracket) : bracket.closing ∈ Token.loneMarks := by
  cases bracket <;> decide

theorem Bracket.closing_ne_tilde (bracket : Bracket) : bracket.closing ≠ '~' := by
  cases bracket <;> decide

theorem Bracket.tokenize_closing (bracket : Bracket) (rest : Text) :
    Token.tokenize (bracket.closing :: rest) = bracket.closer :: Token.tokenize rest :=
  Token.tokenize_mark bracket.closing_mem_loneMarks fun h => absurd h bracket.closing_ne_tilde

theorem Bracket.opener_mem_announcers (bracket : Bracket) : bracket.opener ∈ Token.announcers := by
  cases bracket <;> decide

theorem Bracket.atDelimiter_closing (bracket : Bracket) (rest : Text) :
    Token.AtDelimiter (bracket.closing :: rest) := by
  cases bracket <;> exact Token.atDelimiter_cons.2 (by decide)

namespace Value

open Token (AtDelimiter IsName Lexeme delimiters leadMarks tokenize)

/-- A string is a literal that hides no line feed.  A symbol is a closing bracket, or a name that no
number has. -/
def WellSpelt : Value → Prop
  | .string literal =>
    Text.isStringLiteral literal = true ∧ Text.hidesLineFeed false literal = false
  | .symbol name => name ∈ Token.closers ∨ IsName name ∧ Numeral.read? name = none
  | _ => True

instance : (v : Value) → Decidable v.WellSpelt
  | .string _ => inferInstanceAs (Decidable (_ ∧ _))
  | .symbol _ => inferInstanceAs (Decidable (_ ∨ _))
  | .list _ => isTrue trivial
  | .vector _ => isTrue trivial
  | .mapping _ => isTrue trivial
  | .number _ => isTrue trivial

def tokens (v : Value) : List Token :=
  v.fold fun node below =>
    match node.bracket? with
    | some bracket => bracket.enclose below.flatten
    | none => [node.display]

theorem tokens_of_bracket? {v : Value} {bracket : Bracket} (h : v.bracket? = some bracket) :
    v.tokens = bracket.enclose (v.children.flatMap tokens) := by
  rw [tokens, fold_eq, h, List.flatMap_def]
  rfl

theorem tokens_of_atom {v : Value} (h : v.bracket? = none) : v.tokens = [v.display] := by
  rw [tokens, fold_eq, h]

theorem head?_tokens_append (v : Value) (rest : List Token) :
    (v.tokens ++ rest).head? = v.tokens.head? := by
  cases hbracket : v.bracket? with
  | none => rw [tokens_of_atom hbracket]; rfl
  | some bracket => rw [tokens_of_bracket? hbracket]; rfl

theorem display_append_of_bracket? {v : Value} {bracket : Bracket} (h : v.bracket? = some bracket)
    (rest : Text) : v.display ++ rest
      = bracket.opening :: displayItemsThen v.children [] (bracket.closing :: rest) := by
  rw [display_of_bracket? h, displayItemsThen_nil, bracketed]
  simp

theorem displayItemsThen_cons (item : Value) (more : List Value) (gap rest : Text) :
    displayItemsThen (item :: more) gap rest
      = gap ++ (item.display ++ displayItemsThen more [' '] rest) := by
  rw [displayItemsThen, displayThen_eq]

/-! ## 1. Atoms -/

theorem isName_of_digits {word : Text} (hne : word ≠ [])
    (hword : ∀ c ∈ word, c.isDigit = true ∨ c = '-') : IsName word := by
  have hdelimiters : ∀ c ∈ delimiters, ¬ (c.isDigit = true ∨ c = '-') :=
    Token.forall_mem_of_all (by decide)
  have hleadMarks : ∀ c ∈ leadMarks, ¬ (c.isDigit = true ∨ c = '-') :=
    Token.forall_mem_of_all (by decide)
  refine ⟨hne, fun c hc hmem => hdelimiters c hmem (hword c hc), fun c hc hmem => ?_⟩
  exact hleadMarks c hmem (hword c (List.mem_of_mem_head? hc))

theorem isName_write (n : Int64) : IsName (Numeral.write n) := by
  have hne : Numeral.write n ≠ [] := by
    rw [Numeral.write, Numeral.ofInt]
    split
    · exact List.cons_ne_nil _ _
    · exact Nat.toDigits_ne_nil
  exact isName_of_digits hne fun _ => Numeral.mem_write

theorem WellSpelt.lexeme {v : Value} (h : v.WellSpelt) (hatom : v.bracket? = none) {rest : Text}
    (hrest : AtDelimiter rest) : Lexeme v.display rest := by
  cases v with
  | list => cases hatom
  | vector => cases hatom
  | mapping => cases hatom
  | number n =>
    rw [display_number]
    exact .bare (isName_write n) hrest
  | string literal =>
    rw [display_string]
    rcases (Token.isStringLiteral_iff_closed literal).mp h with ⟨body, rfl, hbody⟩
    exact .closedString hbody
  | symbol name =>
    rw [display_symbol]
    rcases h with hcloser | ⟨hname, -⟩
    · rcases Token.mem_closers_iff.mp hcloser with ⟨bracket, rfl⟩
      exact .mark bracket.closing_mem_loneMarks fun h => absurd h bracket.closing_ne_tilde
    · exact .bare hname hrest

/-! ## 2. The written form as tokens -/

theorem atDelimiter_displayItemsThen (items : List Value) {rest : Text} (hrest : AtDelimiter rest) :
    AtDelimiter (displayItemsThen items [' '] rest) := by
  cases items with
  | nil => exact hrest
  | cons item more => exact Token.atDelimiter_cons.2 (by decide)

theorem tokenize_displayItemsThen {items : List Value} {gap rest : Text}
    (hgap : ∀ text, tokenize (gap ++ text) = tokenize text) (hrest : AtDelimiter rest)
    (hitems : ∀ item ∈ items, ∀ rest, AtDelimiter rest →
      tokenize (item.display ++ rest) = item.tokens ++ tokenize rest) :
    tokenize (displayItemsThen items gap rest) = items.flatMap tokens ++ tokenize rest := by
  induction items generalizing gap with
  | nil => rfl
  | cons item more ih =>
    rcases List.forall_mem_cons.mp hitems with ⟨hitem, hmore⟩
    have hspace : ∀ text, tokenize ([' '] ++ text) = tokenize text := fun text =>
      Token.tokenize_separator (by decide) text
    -- Behind the first value comes a space or what follows the row, a delimiter either way.
    rw [displayItemsThen_cons, hgap, hitem _ (atDelimiter_displayItemsThen more hrest),
      ih hspace hmore, List.flatMap_cons, List.append_assoc]

theorem tokenize_display_append (v : Value) : (∀ node ∈ v.nodes, node.WellSpelt) →
    ∀ rest, AtDelimiter rest → tokenize (v.display ++ rest) = v.tokens ++ tokenize rest := by
  induction v using induction_on_children with
  | step v ih =>
    intro hspelt rest hrest
    rcases forall_mem_nodes_iff.mp hspelt with ⟨hv, hchildren⟩
    cases hbracket : v.bracket? with
    | none => rw [(hv.lexeme hbracket hrest).tokenize_append, tokens_of_atom hbracket]; rfl
    | some bracket =>
      have hitems : ∀ child ∈ v.children, ∀ rest, AtDelimiter rest →
          tokenize (child.display ++ rest) = child.tokens ++ tokenize rest := fun child hchild =>
        ih child hchild (hchildren child hchild)
      rw [display_append_of_bracket? hbracket, Bracket.tokenize_opening,
        tokenize_displayItemsThen (fun _ => rfl) (Bracket.atDelimiter_closing _ _) hitems,
        Bracket.tokenize_closing, tokens_of_bracket? hbracket, Bracket.enclose_append]

theorem tokenize_display {v : Value} (h : ∀ node ∈ v.nodes, node.WellSpelt) :
    tokenize v.display = v.tokens := by
  have happend := tokenize_display_append v h [] Token.atDelimiter_nil
  rw [List.append_nil] at happend
  rw [happend, show tokenize [] = [] from rfl, List.append_nil]

/-! ## 3. The first token -/

theorem WellSpelt.notMem_announcers {v : Value} (h : v.WellSpelt) (hatom : v.bracket? = none) :
    v.display ∉ Token.announcers := by
  -- An announcer is no number, no string and no closing bracket, and starts as no name does.
  intro hmem
  have hnumber : ∀ t ∈ Token.announcers, Numeral.read? t = none := by decide
  have hclosers : ∀ t ∈ Token.announcers, t ∉ Token.closers := by decide
  have hname : ∀ t ∈ Token.announcers, ¬ IsName t := by decide
  cases v with
  | list => cases hatom
  | vector => cases hatom
  | mapping => cases hatom
  | number n =>
    rw [display_number] at hmem
    have hread := hnumber _ hmem
    rw [Numeral.read?_write] at hread
    cases hread
  | string literal =>
    rw [display_string] at hmem
    have hquote := Text.startsWithQuote_of_isStringLiteral h.1
    exact Token.notMem_announcers_of_startsWithQuote hquote hmem
  | symbol name =>
    rw [display_symbol] at hmem
    rcases h with hcloser | ⟨h, -⟩
    · exact hclosers _ hmem hcloser
    · exact hname _ hmem h

theorem WellSpelt.head?_tokens_ne {v w : Value} {bracket : Bracket} (h : v.WellSpelt)
    (hatom : v.bracket? = none) (hbracket : w.bracket? = some bracket) :
    v.tokens.head? ≠ w.tokens.head? := by
  rw [tokens_of_atom hatom, tokens_of_bracket? hbracket]
  intro hhead
  have hopener : v.display = bracket.opener := Option.some.inj hhead
  apply h.notMem_announcers hatom
  rw [hopener]
  exact bracket.opener_mem_announcers

/-- Only the symbol of a closing bracket is written so that it starts with that bracket. -/
theorem WellSpelt.eq_symbol_of_head? {v : Value} (h : v.WellSpelt) {bracket : Bracket}
    (hhead : v.tokens.head? = some bracket.closer) : v = .symbol bracket.closer := by
  cases hbracket : v.bracket? with
  | some other =>
    -- A container starts with its opening bracket.
    rw [tokens_of_bracket? hbracket] at hhead
    cases other <;> cases bracket <;> cases hhead
  | none =>
    rw [tokens_of_atom hbracket] at hhead
    have hdisplay : v.display = bracket.closer := Option.some.inj hhead
    cases v with
    | list => cases hbracket
    | vector => cases hbracket
    | mapping => cases hbracket
    | number n =>
      have hread := Numeral.read?_write n
      rw [← display_number, hdisplay] at hread
      cases bracket <;> cases hread
    | string literal =>
      rw [display_string] at hdisplay
      have hquote := Text.startsWithQuote_of_isStringLiteral h.1
      rw [hdisplay] at hquote
      cases bracket <;> cases hquote
    | symbol name => rw [← hdisplay, display_symbol]

theorem WellSpelt.ofAtom?_display {v : Value} (h : v.WellSpelt) (hatom : v.bracket? = none) :
    ofAtom? v.display = some v := by
  cases v with
  | list => cases hatom
  | vector => cases hatom
  | mapping => cases hatom
  | number n => rw [display_number, ofAtom?, Numeral.read?_write]
  | string literal =>
    have hquote := Text.startsWithQuote_of_isStringLiteral h.1
    rw [display_string, ofAtom?, Numeral.read?_eq_none_of_startsWithQuote hquote, if_pos hquote,
      if_pos h.1]
  | symbol name =>
    have hclosers : ∀ t ∈ Token.closers,
        Numeral.read? t = none ∧ Text.startsWithQuote t = false := by
      decide
    have hname : Numeral.read? name = none ∧ Text.startsWithQuote name = false := by
      rcases h with hcloser | ⟨hname, hnumber⟩
      · exact hclosers name hcloser
      · exact ⟨hnumber, hname.startsWithQuote_eq_false⟩
    rw [display_symbol, ofAtom?, hname.1, hname.2]
    rfl

end Value

end LispForms
