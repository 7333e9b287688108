import LispForms.Graph.Basic

/-!
# Walk — the graph drawn with a count that is passed along

`statements` gives a child its number by the sizes of the children before it.  A walk that draws the
graph knows no sizes: it takes each number from a count of the nodes so far, writes behind what is
there already, and gives the number of its node back to the caller, who draws the edge to it when
its subtree is complete.

Main statement: `walk_run`.
-/

namespace LispForms.Graph

/-- What has been written so far, and how many nodes are among it. -/
structure Drawing where
  written : List Statement
  count : Nat

def drawNode (v : Value) : StateM Drawing Nat := fun drawing =>
  (drawing.count,
    ⟨drawing.written ++ [.node drawing.count (figure v) (label v)], drawing.count + 1⟩)

def drawEdge (source target : Nat) (role : Role) : StateM Drawing Unit :=
  modify fun drawing => { drawing with written := drawing.written ++ [.edge source target role] }

mutual

/-- Draws a value with all that is inside it; gives back the number of its node. -/
def walk : Value → StateM Drawing Nat
  | .list items => do
    let id ← drawNode (.list items)
    walkItems items id
    return id
  | .vector items => do
    let id ← drawNode (.vector items)
    walkItems items id
    return id
  | .mapping entries => do
    let id ← drawNode (.mapping entries)
    walkEntries entries id
    return id
  | .number n => drawNode (.number n)
  | .string literal => drawNode (.string literal)
  | .symbol name => drawNode (.symbol name)

def walkItems : List Value → Nat → StateM Drawing Unit
  | [], _ => return
  | item :: rest, parent => do
    let child ← walk item
    drawEdge parent child .item
    walkItems rest parent

/-- The value hangs below the node of its key, which is known by the number that came back. -/
def walkEntries : List (Value × Value) → Nat → StateM Drawing Unit
  | [], _ => return
  | (key, value) :: rest, parent => do
    let keyId ← walk key
    drawEdge parent keyId .key
    let valueId ← walk value
    drawEdge keyId valueId .value
    walkEntries rest parent

end

theorem drawNode_run (v : Value) (drawing : Drawing) :
    ((drawNode v).run drawing).run = (drawing.count,
      ⟨drawing.written ++ [.node drawing.count (figure v) (label v)], drawing.count + 1⟩) := rfl

theorem drawEdge_run (source target : Nat) (role : Role) (drawing : Drawing) :
    ((drawEdge source target role).run drawing).run
      = ((), ⟨drawing.written ++ [.edge source target role], drawing.count⟩) := rfl

-- Along the value; the drawing is whatever the calls before have left.
mutual

/-- From any drawing on, a walk takes the next number for the value itself, writes the value's
statements from this number on, and counts all of its nodes. -/
theorem walk_run : ∀ (v : Value) (drawing : Drawing), ((walk v).run drawing).run
    = (drawing.count,
        ⟨drawing.written ++ statements v drawing.count, drawing.count + v.size⟩)
  | .list items, drawing => by
    simp [walk, drawNode_run, walkItems_run items, statements, Value.size, Nat.add_assoc]
  | .vector items, drawing => by
    simp [walk, drawNode_run, walkItems_run items, statements, Value.size, Nat.add_assoc]
  | .mapping entries, drawing => by
    simp [walk, drawNode_run, walkEntries_run entries, statements, Value.size, Nat.add_assoc]
  | .number n, drawing => by rw [walk, drawNode_run, statements, Value.size]
  | .string literal, drawing => by rw [walk, drawNode_run, statements, Value.size]
  | .symbol name, drawing => by rw [walk, drawNode_run, statements, Value.size]

theorem walkItems_run : ∀ (items : List Value) (parent : Nat) (drawing : Drawing),
    ((walkItems items parent).run drawing).run
      = ((), ⟨drawing.written ++ itemStatements items parent drawing.count,
          drawing.count + Value.sizeItems items⟩)
  | [], parent, drawing => by simp [walkItems, itemStatements, Value.sizeItems]
  | item :: rest, parent, drawing => by
    simp [walkItems, walk_run item, drawEdge_run, walkItems_run rest, itemStatements,
      Value.sizeItems, Nat.add_assoc]

theorem walkEntries_run : ∀ (entries : List (Value × Value)) (parent : Nat) (drawing : Drawing),
    ((walkEntries entries parent).run drawing).run
      = ((), ⟨drawing.written ++ entryStatements entries parent drawing.count,
          drawing.count + Value.sizeEntries entries⟩)
  | [], parent, drawing => by simp [walkEntries, entryStatements, Value.sizeEntries]
  | (key, value) :: rest, parent, drawing => by
    simp [walkEntries, walk_run key, walk_run value, drawEdge_run, walkEntries_run rest,
      entryStatements, Value.sizeEntries, Nat.add_assoc]

end

/-- On an empty sheet the walk draws the graph of the value, and counts its nodes. -/
theorem walk_run_empty (v : Value) : ((walk v).run ⟨[], 0⟩).run = (0, ⟨ofValue v, v.size⟩) := by
  rw [walk_run, List.nil_append, Nat.zero_add]
  rfl

end LispForms.Graph
