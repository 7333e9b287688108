import LispForms.Proofs.Graph.Dot

/-!
# Distinct — different values are drawn differently

The statements for a value start with its node, and its children follow as long as nodes come next:
what follows the last child is an edge, or the end.  So the statements for a value can be split off
the front of a row of statements, and tell which value it is.

Main statement: `dot_eq_iff`.
-/

namespace LispForms.Graph

/-- No node comes next, so that the subtree before is complete. -/
def Complete (rest : List Statement) : Prop :=
  ∀ id figure label more, rest ≠ .node id figure label :: more

theorem complete_nil : Complete [] := nofun

theorem complete_edge (source target : Nat) (role : Role) (rest : List Statement) :
    Complete (.edge source target role :: rest) := nofun

/-- The statements for a value start with its node. -/
theorem exists_below (v : Value) (id : Nat) :
    ∃ below, statements v id = .node id (figure v) (label v) :: below := by
  cases v <;> exact ⟨_, rfl⟩

theorem head_eq {v w : Value} {id : Nat} {rest rest' : List Statement}
    (h : statements v id ++ rest = statements w id ++ rest') :
    figure v = figure w ∧ label v = label w := by
  obtain ⟨below, hv⟩ := exists_below v id
  obtain ⟨below', hw⟩ := exists_below w id
  rw [hv, hw] at h
  have hnode := (List.cons.inj h).1
  exact ⟨(Statement.node.inj hnode).2.1, (Statement.node.inj hnode).2.2⟩

theorem Complete.ne_statements {rest : List Statement} (hrest : Complete rest) (v : Value)
    (id : Nat) (more : List Statement) : rest ≠ statements v id ++ more := by
  obtain ⟨below, hv⟩ := exists_below v id
  rw [hv]
  exact hrest _ _ _ _

theorem itemStatements_cons_append (item : Value) (more : List Value) (parent next : Nat)
    (rest : List Statement) : itemStatements (item :: more) parent next ++ rest
      = statements item next ++ .edge parent next .item ::
        (itemStatements more parent (next + item.size) ++ rest) := by
  simp [itemStatements]

theorem entryStatements_cons_append (entry : Value × Value) (more : List (Value × Value))
    (parent next : Nat) (rest : List Statement) :
    entryStatements (entry :: more) parent next ++ rest
      = statements entry.1 next ++ .edge parent next .key ::
        (statements entry.2 (next + entry.1.size) ++ .edge next (next + entry.1.size) .value ::
          (entryStatements more parent (next + entry.1.size + entry.2.size) ++ rest)) := by
  simp [entryStatements]

-- The figure of the first node tells the constructor, and its label the atom.
mutual

theorem statements_split : ∀ (v w : Value) {id : Nat} {rest rest' : List Statement},
    Complete rest → Complete rest' → statements v id ++ rest = statements w id ++ rest' →
    v = w ∧ rest = rest'
  | .list items, w, id, rest, rest', hrest, hrest', h => by
    cases w with
    | list items' =>
      obtain ⟨heq, hbehind⟩ := itemStatements_split items items' hrest hrest' (List.cons.inj h).2
      exact ⟨by rw [heq], hbehind⟩
    | _ => exact absurd (head_eq h).1 nofun
  | .vector items, w, id, rest, rest', hrest, hrest', h => by
    cases w with
    | vector items' =>
      obtain ⟨heq, hbehind⟩ := itemStatements_split items items' hrest hrest' (List.cons.inj h).2
      exact ⟨by rw [heq], hbehind⟩
    | _ => exact absurd (head_eq h).1 nofun
  | .mapping entries, w, id, rest, rest', hrest, hrest', h => by
    cases w with
    | mapping entries' =>
      obtain ⟨heq, hbehind⟩ := entryStatements_split entries entries' hrest hrest'
        (List.cons.inj h).2
      exact ⟨by rw [heq], hbehind⟩
    | _ => exact absurd (head_eq h).1 nofun
  | .number n, w, id, rest, rest', _, _, h => by
    cases w with
    | number m => exact ⟨by rw [Numeral.write_inj (head_eq h).2], (List.cons.inj h).2⟩
    | _ => exact absurd (head_eq h).1 nofun
  | .string literal, w, id, rest, rest', _, _, h => by
    cases w with
    | string literal' => exact ⟨congrArg _ (head_eq h).2, (List.cons.inj h).2⟩
    | _ => exact absurd (head_eq h).1 nofun
  | .symbol name, w, id, rest, rest', _, _, h => by
    cases w with
    | symbol name' => exact ⟨congrArg _ (head_eq h).2, (List.cons.inj h).2⟩
    | _ => exact absurd (head_eq h).1 nofun

theorem itemStatements_split : ∀ (items items' : List Value) {parent next : Nat}
    {rest rest' : List Statement}, Complete rest → Complete rest' →
    itemStatements items parent next ++ rest = itemStatements items' parent next ++ rest' →
    items = items' ∧ rest = rest'
  | [], items', parent, next, rest, rest', hrest, hrest', h => by
    cases items' with
    | nil => exact ⟨rfl, h⟩
    | cons item' more' =>
      rw [itemStatements_cons_append] at h
      exact absurd h (hrest.ne_statements item' next _)
  | item :: more, items', parent, next, rest, rest', hrest, hrest', h => by
    cases items' with
    | nil =>
      rw [itemStatements_cons_append] at h
      exact absurd h.symm (hrest'.ne_statements item next _)
    | cons item' more' =>
      rw [itemStatements_cons_append, itemStatements_cons_append] at h
      obtain ⟨rfl, hedge⟩ := statements_split item item' (complete_edge _ _ _ _)
        (complete_edge _ _ _ _) h
      obtain ⟨heq, hbehind⟩ := itemStatements_split more more' hrest hrest' (List.cons.inj hedge).2
      exact ⟨by rw [heq], hbehind⟩

theorem entryStatements_split : ∀ (entries entries' : List (Value × Value)) {parent next : Nat}
    {rest rest' : List Statement}, Complete rest → Complete rest' →
    entryStatements entries parent next ++ rest = entryStatements entries' parent next ++ rest' →
    entries = entries' ∧ rest = rest'
  | [], entries', parent, next, rest, rest', hrest, hrest', h => by
    cases entries' with
    | nil => exact ⟨rfl, h⟩
    | cons entry' more' =>
      rw [entryStatements_cons_append] at h
      exact absurd h (hrest.ne_statements entry'.1 next _)
  | (key, value) :: more, entries', parent, next, rest, rest', hrest, hrest', h => by
    cases entries' with
    | nil =>
      rw [entryStatements_cons_append] at h
      exact absurd h.symm (hrest'.ne_statements key next _)
    | cons entry' more' =>
      obtain ⟨key', value'⟩ := entry'
      rw [entryStatements_cons_append, entryStatements_cons_append] at h
      -- The value's subtree stands behind the edge to the key; its number is counted from there.
      obtain ⟨rfl, hkey⟩ := statements_split key key' (complete_edge _ _ _ _)
        (complete_edge _ _ _ _) h
      obtain ⟨rfl, hedge⟩ := statements_split value value' (complete_edge _ _ _ _)
        (complete_edge _ _ _ _) (List.cons.inj hkey).2
      obtain ⟨heq, hbehind⟩ := entryStatements_split more more' hrest hrest'
        (List.cons.inj hedge).2
      exact ⟨by rw [heq], hbehind⟩

end

theorem ofValue_inj {v w : Value} (h : ofValue v = ofValue w) : v = w := by
  have happend : statements v 0 ++ [] = statements w 0 ++ [] := by
    rw [List.append_nil, List.append_nil]
    exact h
  exact (statements_split v w complete_nil complete_nil happend).1

/-- The text of the graph tells the value, whatever the strings and symbols in it are. -/
theorem dot_eq_iff (v w : Value) : dot v = dot w ↔ v = w :=
  ⟨fun h => ofValue_inj (render_inj h), congrArg dot⟩

end LispForms.Graph
