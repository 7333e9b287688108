import LispForms.Graph.Dot
import LispForms.Proofs.Text.Delimited

/-!
# DOT — the statements can be read off the text

A node's number ends at a space, its figure at a comma, and a label at the first double quote that
no backslash escapes.  So each line tells its statement, whatever line breaks, brackets and
semicolons the label holds, and the text tells its lines.
-/

namespace LispForms.Graph

open Text (SelfDelimiting)

/-! ## 1. Labels -/

def escapeCharacter (c : Char) : Text := if c = '\\' || c = '"' then ['\\', c] else [c]

theorem escapeLabel_eq (text : Text) : escapeLabel text = text.flatMap escapeCharacter := rfl

theorem escapeCharacter_cases (c : Char) :
    escapeCharacter c = ['\\', c] ∨ escapeCharacter c = [c] ∧ c ≠ '\\' ∧ c ≠ '"' := by
  by_cases hc : c = '\\' || c = '"'
  · exact .inl (if_pos hc)
  · right
    refine ⟨if_neg hc, ?_⟩
    simpa using hc

theorem selfDelimiting_escapeCharacter : SelfDelimiting escapeCharacter '"' := by
  refine ⟨fun {c d rest rest'} h => ?_, fun c rest rest' h => ?_⟩
  · rcases escapeCharacter_cases c with hc | ⟨hc, hbackslash, -⟩ <;>
      rcases escapeCharacter_cases d with hd | ⟨hd, hbackslash', -⟩ <;> rw [hc, hd] at h
    · exact List.cons.inj (List.cons.inj h).2
    · exact absurd (List.cons.inj h).1.symm hbackslash'
    · exact absurd (List.cons.inj h).1 hbackslash
    · exact List.cons.inj h
  · rcases escapeCharacter_cases c with hc | ⟨hc, -, hquote⟩ <;> rw [hc] at h
    · exact absurd (List.cons.inj h).1 (by decide)
    · exact hquote (List.cons.inj h).1

theorem labelAttribute_append (text rest : Text) : labelAttribute text ++ rest
    = "label=\"".toList ++ (text.flatMap escapeCharacter ++ '"' :: rest) := by
  unfold labelAttribute
  rw [escapeLabel_eq, List.append_assoc, List.append_assoc, List.singleton_append]

theorem labelAttribute_split {text text' rest rest' : Text}
    (h : labelAttribute text ++ rest = labelAttribute text' ++ rest') :
    text = text' ∧ rest = rest' := by
  rw [labelAttribute_append, labelAttribute_append] at h
  exact selfDelimiting_escapeCharacter.flatMap_split (List.append_cancel_left h)

/-! ## 2. Names -/

theorem nodeName_split {id id' : Nat} {rest rest' : Text}
    (h : nodeName id ++ ' ' :: rest = nodeName id' ++ ' ' :: rest') : id = id' ∧ rest = rest' := by
  obtain ⟨hid, hrest⟩ := Text.decimal_split (by decide) (by decide) (List.cons.inj h).2
  exact ⟨hid, (List.cons.inj hrest).2⟩

theorem Figure.name_split {figure figure' : Figure} {rest rest' : Text}
    (h : figure.name ++ ',' :: rest = figure'.name ++ ',' :: rest') :
    figure = figure' ∧ rest = rest' := by
  have hcomma : ∀ figure : Figure, ∀ c ∈ figure.name, c ≠ ',' := by
    intro figure c hc heq
    have hnotMem : ',' ∉ figure.name := by cases figure <;> decide
    exact hnotMem (heq ▸ hc)
  obtain ⟨hname, hrest⟩ := Text.eq_of_delimited (hcomma figure) (hcomma figure')
    (fun h => h rfl) (fun h => h rfl) h
  refine ⟨?_, (List.cons.inj hrest).2⟩
  cases figure <;> cases figure' <;> first | rfl | exact absurd hname (by decide)

theorem Role.name?_inj {role role' : Role} (h : role.name? = role'.name?) : role = role' := by
  cases role <;> cases role' <;> first | rfl | exact absurd h (by decide)

/-! ## 3. Lines -/

/-- What stands behind the target of an edge, up to the semicolon. -/
def roleAttribute (role : Role) : Text :=
  match role.name? with
  | none => []
  | some name => [' ', '['] ++ labelAttribute name ++ [']']

theorem roleAttribute_split {role role' : Role} {rest rest' : Text}
    (h : roleAttribute role ++ ';' :: rest = roleAttribute role' ++ ';' :: rest') :
    role = role' ∧ rest = rest' := by
  unfold roleAttribute at h
  cases hname : role.name? <;> cases hname' : role'.name? <;>
    simp only [hname, hname', List.append_assoc] at h
  · exact ⟨Role.name?_inj (by rw [hname, hname']), (List.cons.inj h).2⟩
  · exact absurd (List.cons.inj h).1 (by decide)
  · exact absurd (List.cons.inj h).1 (by decide)
  · obtain ⟨heq, hrest⟩ := labelAttribute_split (List.append_cancel_left h)
    refine ⟨Role.name?_inj (by rw [hname, hname', heq]), ?_⟩
    exact (List.cons.inj (List.cons.inj hrest).2).2

/-- Behind a target comes a space or a semicolon. -/
theorem target_split {target target' : Nat} {role role' : Role} {rest rest' : Text}
    (h : nodeName target ++ (roleAttribute role ++ ';' :: rest)
      = nodeName target' ++ (roleAttribute role' ++ ';' :: rest')) :
    target = target' ∧ roleAttribute role ++ ';' :: rest = roleAttribute role' ++ ';' :: rest' := by
  have hnext : ∀ (role : Role) (rest : Text), ∃ c more,
      roleAttribute role ++ ';' :: rest = c :: more ∧ c.isDigit = false := by
    intro role rest
    unfold roleAttribute
    cases role.name? with
    | none => exact ⟨';', rest, rfl, by decide⟩
    | some name => exact ⟨' ', _, rfl, by decide⟩
  obtain ⟨c, more, heq, hc⟩ := hnext role rest
  obtain ⟨d, more', heq', hd⟩ := hnext role' rest'
  rw [heq, heq'] at h ⊢
  exact Text.decimal_split hc hd (List.cons.inj h).2

theorem line_node (id : Nat) (figure : Figure) (label rest : Text) :
    (Statement.node id figure label).line ++ rest = ' ' :: ' ' :: (nodeName id ++ ' ' ::
      ("[shape=".toList ++ (figure.name ++ ',' :: ' ' ::
        (labelAttribute label ++ ']' :: ';' :: '\n' :: rest)))) := by
  simp [Statement.line, Statement.text]

theorem line_edge (source target : Nat) (role : Role) (rest : Text) :
    (Statement.edge source target role).line ++ rest = ' ' :: ' ' :: (nodeName source ++ ' ' ::
      ("-> ".toList ++ (nodeName target ++ (roleAttribute role ++ ';' :: '\n' :: rest)))) := by
  simp only [Statement.line, Statement.text, roleAttribute]
  cases role.name? <;> simp

theorem arrow_ne_bracket (rest rest' : Text) :
    "-> ".toList ++ rest ≠ "[shape=".toList ++ rest' := by
  simp

theorem Statement.line_split {statement statement' : Statement} {rest rest' : Text}
    (h : statement.line ++ rest = statement'.line ++ rest') :
    statement = statement' ∧ rest = rest' := by
  -- Both kinds of line start with the number of a node; a bracket or an arrow comes next.
  cases statement with
  | node id figure label =>
    rw [line_node] at h
    cases statement' with
    | node id' figure' label' =>
      rw [line_node] at h
      obtain ⟨rfl, hfigure⟩ := nodeName_split (List.cons.inj (List.cons.inj h).2).2
      obtain ⟨rfl, hlabel⟩ := Figure.name_split (List.append_cancel_left hfigure)
      obtain ⟨rfl, hend⟩ := labelAttribute_split (List.cons.inj hlabel).2
      have hbehind := (List.cons.inj (List.cons.inj hend).2).2
      exact ⟨rfl, (List.cons.inj hbehind).2⟩
    | edge source target role =>
      rw [line_edge] at h
      obtain ⟨-, hnext⟩ := nodeName_split (List.cons.inj (List.cons.inj h).2).2
      exact absurd hnext.symm (arrow_ne_bracket _ _)
  | edge source target role =>
    rw [line_edge] at h
    cases statement' with
    | node id' figure' label' =>
      rw [line_node] at h
      obtain ⟨-, hnext⟩ := nodeName_split (List.cons.inj (List.cons.inj h).2).2
      exact absurd hnext (arrow_ne_bracket _ _)
    | edge source' target' role' =>
      rw [line_edge] at h
      obtain ⟨rfl, htarget⟩ := nodeName_split (List.cons.inj (List.cons.inj h).2).2
      obtain ⟨rfl, hrole⟩ := target_split (List.append_cancel_left htarget)
      obtain ⟨rfl, hend⟩ := roleAttribute_split hrole
      exact ⟨rfl, (List.cons.inj hend).2⟩

theorem selfDelimiting_line : SelfDelimiting Statement.line '\x7d' := by
  refine ⟨Statement.line_split, fun statement rest rest' h => ?_⟩
  exact absurd (List.cons.inj h).1 (by decide)

theorem render_eq (statements : List Statement) : render statements
    = "digraph \x7b\n".toList ++ (statements.flatMap Statement.line ++ ['\x7d', '\n']) := by
  have hend : "\x7d\n".toList = ['\x7d', '\n'] := by decide
  unfold render
  rw [List.append_assoc, hend]

/-- A text is the text of one row of statements at most. -/
theorem render_inj {statements statements' : List Statement}
    (h : render statements = render statements') : statements = statements' := by
  rw [render_eq, render_eq] at h
  exact (selfDelimiting_line.flatMap_split (List.append_cancel_left h)).1

end LispForms.Graph
