import LispForms.Proofs.Reader.Descent
import LispForms.Proofs.Reader.Part
import LispForms.Proofs.Text.Quoted
import LispForms.Session.Reply

/-!
# OneLine — what is written for a line is one line

A line has no line feed but at its end.  A string is closed before that end, and every other token
has no line feed; so the written form of a value that is read from a line has none.  The message of
an error has none whatever has been read, since a token that it quotes is escaped.
-/

namespace LispForms

/-! ## 1. Written forms -/

namespace Value

/-- A line feed in a written form is in the written form of an atom. -/
theorem lineFeed_notMem_display (v : Value) :
    (∀ node ∈ v.nodes, node.bracket? = none → '\n' ∉ node.display) → '\n' ∉ v.display := by
  induction v using induction_on_children with
  | step v ih =>
    intro hatoms
    rcases forall_mem_nodes_iff.mp hatoms with ⟨hv, hchildren⟩
    cases hbracket : v.bracket? with
    | none => exact hv hbracket
    | some bracket =>
      have hbetween : '\n' ∉ Text.spaced (v.children.map display) := fun h => by
        rcases Text.mem_joined h with hgap | ⟨item, hitem, h⟩
        · exact absurd hgap (by decide)
        · rcases List.mem_map.mp hitem with ⟨child, hchild, rfl⟩
          exact ih child hchild (hchildren child hchild) h
      have hends : '\n' ≠ bracket.opening ∧ '\n' ≠ bracket.closing := by
        cases bracket <;> decide
      rw [display_of_bracket? hbracket, bracketed]
      simp [hends, hbetween]

end Value

/-- The text of a line: no line feed in it but at its end. -/
def Text.IsLine (line : Text) : Prop := '\n' ∉ line.dropLast

namespace Token

/-- A token stands in the text in one piece. -/
theorem Cut.infix_of_mem {text : Text} {tokens : List Token} (h : Cut text tokens) :
    ∀ token ∈ tokens, token <:+: text := by
  induction h with
  | last => exact List.forall_mem_nil _
  | @token gap rest token tokens _ _ _ ih =>
    have hrest : rest <:+: gap ++ (token ++ rest) :=
      ((List.suffix_append _ _).trans (List.suffix_append _ _)).isInfix
    have htoken : token <:+: gap ++ (token ++ rest) :=
      (List.prefix_append _ _).isInfix.trans (List.suffix_append _ _).isInfix
    exact List.forall_mem_cons.mpr ⟨htoken, fun other hother => (ih other hother).trans hrest⟩

theorem IsName.lineFeed_notMem {word : Text} (h : IsName word) : '\n' ∉ word := fun hmem =>
  h.notMem_delimiters _ hmem (by decide)

/-- The quote that closes a string is behind everything in it, so no line ends inside. -/
theorem lineFeed_notMem_of_isLine {line literal : Text} (hline : line.IsLine)
    (hliteral : (Value.string literal).WellSpelt) (h : literal <:+: line) : '\n' ∉ literal := by
  rcases (isStringLiteral_iff_closed literal).mp hliteral with ⟨body, rfl, -⟩
  rcases h with ⟨before, behind, rfl⟩
  -- All but the closing quote is in front of the last character of the line.
  have hsplit : before ++ ('"' :: body ++ ['"']) ++ behind
      = (before ++ '"' :: body) ++ '"' :: behind := by simp
  rw [Text.IsLine, hsplit, List.dropLast_append_cons] at hline
  have hbody : '\n' ∉ '"' :: body := fun hmem =>
    hline (List.mem_append_left _ (List.mem_append_right _ hmem))
  intro hmem
  rcases List.mem_append.mp hmem with hmem | hmem
  · exact hbody hmem
  · exact absurd hmem (by decide)

end Token

/-- A string in a value that is read is one of the tokens. -/
theorem mem_tokenize_of_string {text : Text} {v : Value} (h : read text = .ok v) {literal : Text}
    (hliteral : .string literal ∈ v.nodes) : literal ∈ Token.tokenize text := by
  rcases Reader.read_eq_ok_iff.mp h with ⟨segment, rest, htokens, hderives⟩
  rcases hderives.standsIn _ hliteral with ⟨mark, -, hname⟩ | ⟨part, hpart, hstring⟩
  · cases hname
  · rw [hstring.segment_of_string] at hpart
    rw [htokens]
    exact List.mem_append_left _ (hpart.subset List.mem_cons_self)

theorem lineFeed_notMem_display_of_read {line : Text} (hline : line.IsLine) {v : Value}
    (h : read line = .ok v) : '\n' ∉ v.display := by
  apply Value.lineFeed_notMem_display
  intro node hnode hatom
  have hspelt := (allReadable_of_read h node hnode).wellSpelt
  cases node with
  | list => cases hatom
  | vector => cases hatom
  | mapping => cases hatom
  | number n =>
    rw [Value.display_number]
    exact (Value.isName_write n).lineFeed_notMem
  | string literal =>
    rw [Value.display_string]
    exact Token.lineFeed_notMem_of_isLine hline hspelt
      ((Token.cut_tokenize line).infix_of_mem _ (mem_tokenize_of_string h hnode))
  | symbol name =>
    rw [Value.display_symbol]
    rcases hspelt with hcloser | ⟨hname, -⟩
    · have hclosers : ∀ closer ∈ Token.closers, '\n' ∉ closer := by decide
      exact hclosers name hcloser
    · exact hname.lineFeed_notMem

/-! ## 2. Messages -/

open Text (lineFeed_notMem_decimal lineFeed_notMem_quoted)

theorem Bracket.lineFeed_notMem_closer (bracket : Bracket) : '\n' ∉ bracket.closer := by
  cases bracket <;> decide

theorem lineFeed_notMem_noteOf_sigil (sigil : Sigil) : '\n' ∉ noteOf sigil.name := by
  cases sigil <;> decide

theorem lineFeed_notMem_noteOf_metadata : '\n' ∉ noteOf metadataName := by decide

/-- Only a cause given in words can have a line feed in its words. -/
theorem Cause.lineFeed_notMem_detail (cause : Cause) (h : ∀ words, cause ≠ .stated words) :
    '\n' ∉ cause.detail := by
  cases cause with
  | noToken position => exact List.not_mem_append (by decide) (lineFeed_notMem_decimal _)
  | unclosed bracket start position =>
    have hwhat : '\n' ∉ (if bracket = .curly then "mapping" else "form").toList := by
      cases bracket <;> decide
    have hopen : '\n' ∉ "expected '".toList ++ bracket.closer :=
      List.not_mem_append (by decide) bracket.lineFeed_notMem_closer
    have hclose : '\n' ∉ "expected '".toList ++ bracket.closer ++ "' to close the ".toList
        ++ (if bracket = .curly then "mapping" else "form").toList :=
      List.not_mem_append (List.not_mem_append hopen (by decide)) hwhat
    refine List.not_mem_append (List.not_mem_append ?_ (by decide)) (lineFeed_notMem_decimal _)
    exact List.not_mem_append (List.not_mem_append hclose (by decide)) (lineFeed_notMem_decimal _)
  | keyWithoutValue start =>
    refine List.not_mem_append (List.not_mem_append ?_ (lineFeed_notMem_decimal _)) ?_ <;> decide
  | noMapping position found =>
    have hplace : '\n' ∉ "expected '\x7b' at token ".toList ++ Text.decimal position :=
      List.not_mem_append (by decide) (lineFeed_notMem_decimal _)
    exact List.not_mem_append (List.not_mem_append hplace (by decide)) (lineFeed_notMem_quoted _)
  | tooDeep position =>
    have hplace : '\n' ∉ "form nested too deeply at token ".toList ++ Text.decimal position :=
      List.not_mem_append (by decide) (lineFeed_notMem_decimal _)
    refine List.not_mem_append (List.not_mem_append ?_ (lineFeed_notMem_decimal _)) (by decide)
    exact List.not_mem_append hplace (by decide)
  | malformedString position => exact List.not_mem_append (by decide) (lineFeed_notMem_decimal _)
  | stated words => exact absurd rfl (h words)

theorem ReadError.lineFeed_notMem_of_cause {cause : Cause} (h : ∀ words, cause ≠ .stated words) :
    '\n' ∉ (ReadError.mk [] cause).detail :=
  cause.lineFeed_notMem_detail h

theorem ReadError.lineFeed_notMem_annotate {error : ReadError} {note : Text}
    (hnote : '\n' ∉ note) (h : '\n' ∉ error.detail) : '\n' ∉ (error.annotate note).detail := by
  rw [detail_annotate]
  exact List.not_mem_append (List.not_mem_append hnote (by decide)) h

namespace Cursor

theorem lineFeed_notMem_marked {note : Text} (hnote : '\n' ∉ note) {build : Value → Value}
    {result : Except ReadError Value} (h : ∀ error, result = .error error → '\n' ∉ error.detail) :
    ∀ error, marked note build result = .error error → '\n' ∉ error.detail := by
  intro error herror
  cases result with
  | ok value => cases herror
  | error inner =>
    cases herror
    exact ReadError.lineFeed_notMem_annotate hnote (h inner rfl)

/-- Whatever ends a descent with an error, its words stay on one line. -/
theorem Descent.lineFeed_notMem_detail {stage : Stage} {cursor after : Cursor}
    {result : Except ReadError Value} (h : Descent stage cursor result after) :
    ∀ error, result = .error error → '\n' ∉ error.detail := by
  induction h with
  | tooDeep h =>
    obtain ⟨-, rfl⟩ := eq_tooDeep_of_descend h
    rintro _ ⟨⟩
    exact ReadError.lineFeed_notMem_of_cause nofun
  | level _ _ ih => exact ih
  | noToken h =>
    obtain ⟨-, rfl⟩ := eq_noToken_of_peek h
    rintro _ ⟨⟩
    exact ReadError.lineFeed_notMem_of_cause nofun
  | sequence _ _ _ ih => exact ih
  | mapping _ _ _ ih => exact ih
  | abbreviation _ _ _ ih => exact lineFeed_notMem_marked (lineFeed_notMem_noteOf_sigil _) ih
  | noMetadata _ _ _ ih =>
    rintro _ ⟨⟩
    exact ReadError.lineFeed_notMem_annotate lineFeed_notMem_noteOf_metadata (ih _ rfl)
  | description _ _ _ _ _ ih => exact lineFeed_notMem_marked lineFeed_notMem_noteOf_metadata ih
  | atom => exact nofun
  | noBrace h =>
    obtain ⟨-, rfl⟩ := eq_noToken_of_peek (eq_self_of_next h).1
    rintro _ ⟨⟩
    exact ReadError.lineFeed_notMem_of_cause nofun
  | braces _ _ _ ih => exact ih
  | closedSequence => exact nofun
  | closedMapping => exact nofun
  | failed _ _ _ _ ih => exact ih
  | next _ _ _ _ _ _ ih => exact ih
  -- The other rules name their cause.
  | _ =>
    rintro _ ⟨⟩
    exact ReadError.lineFeed_notMem_of_cause nofun

end Cursor

theorem lineFeed_notMem_message_of_read {text : Text} {error : ReadError}
    (h : read text = .error error) : '\n' ∉ error.message := by
  obtain ⟨result, after, hdescent⟩ := Cursor.exists_descent (.ofText text)
  have hresult : result = .error error := by
    rw [← h]
    exact congrArg Prod.fst hdescent.readForm_eq.symm
  exact List.not_mem_append (by decide) (hdescent.lineFeed_notMem_detail error hresult)

end LispForms
