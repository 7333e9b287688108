import LispForms.Value.Display

/-!
# Graph — a value as a tree of numbered nodes

Every value inside a value is a node, mapping keys included. Nodes are numbered in preorder from
zero. The statements come in the order in which the tree is walked: a node, then for each of its
children the child's whole subtree and after it the edge that leads there. The value of a mapping's
entry hangs below its key. The numbers come from the sizes of subtrees; `Graph.walk` counts nodes as
it draws them, and comes to the same.
-/

namespace LispForms.Graph

inductive Figure where
  | oval
  | box
  | hexagon
  | rectangle
  | note
  | diamond
  deriving DecidableEq, Repr

/-- What the target of an edge is to its source. -/
inductive Role where
  | item
  | key
  | value
  deriving DecidableEq, Repr

inductive Statement where
  | node (id : Nat) (figure : Figure) (label : Text)
  | edge (source target : Nat) (role : Role)
  deriving DecidableEq, Repr

def figure : Value → Figure
  | .list _ => .oval
  | .vector _ => .box
  | .mapping _ => .hexagon
  | .number _ => .rectangle
  | .string _ => .note
  | .symbol _ => .diamond

/-- Atoms are labelled by their written form, all others by their empty brackets. -/
def label : Value → Text
  | .list _ => Value.bracketed .round []
  | .vector _ => Value.bracketed .square []
  | .mapping _ => Value.bracketed .curly []
  | .number n => Numeral.write n
  | .string literal => literal
  | .symbol name => name

mutual

/-- The statements for a value whose node has the given number. -/
def statements : Value → Nat → List Statement
  | .list items, id =>
    .node id (figure (.list items)) (label (.list items)) :: itemStatements items id (id + 1)
  | .vector items, id =>
    .node id (figure (.vector items)) (label (.vector items)) :: itemStatements items id (id + 1)
  | .mapping entries, id =>
    .node id (figure (.mapping entries)) (label (.mapping entries)) ::
      entryStatements entries id (id + 1)
  | .number n, id => [.node id (figure (.number n)) (label (.number n))]
  | .string literal, id => [.node id (figure (.string literal)) (label (.string literal))]
  | .symbol name, id => [.node id (figure (.symbol name)) (label (.symbol name))]

/-- The statements for the items of a parent, given the next number that is free. -/
def itemStatements : List Value → Nat → Nat → List Statement
  | [], _, _ => []
  | item :: rest, parent, next =>
    statements item next ++ .edge parent next .item ::
      itemStatements rest parent (next + item.size)

def entryStatements : List (Value × Value) → Nat → Nat → List Statement
  | [], _, _ => []
  | (key, value) :: rest, parent, next =>
    -- The node of the key has the number `next`.
    statements key next ++ .edge parent next .key ::
      (statements value (next + key.size) ++ .edge next (next + key.size) .value ::
        entryStatements rest parent (next + key.size + value.size))

end

def ofValue (value : Value) : List Statement := statements value 0

end LispForms.Graph
