import LispForms.Graph.Basic

/-!
# DOT — the text of a graph

One statement to a line, indented by two spaces and ended by a semicolon. Node `n` is named `v`
followed by the number. Labels stand between double quotes, with backslashes and double quotes
escaped; line breaks stay.
-/

namespace LispForms.Graph

def Figure.name : Figure → Text
  | .oval => "oval".toList
  | .box => "box".toList
  | .hexagon => "hexagon".toList
  | .rectangle => "rectangle".toList
  | .note => "note".toList
  | .diamond => "diamond".toList

/-- The label of an edge; edges to the items of a sequence have none. -/
def Role.name? : Role → Option Text
  | .item => none
  | .key => some "key".toList
  | .value => some "value".toList

def escapeLabel (text : Text) : Text :=
  text.flatMap fun c => if c = '\\' || c = '"' then ['\\', c] else [c]

def nodeName (id : Nat) : Text := 'v' :: Text.decimal id

def labelAttribute (text : Text) : Text := "label=\"".toList ++ escapeLabel text ++ ['"']

def Statement.text : Statement → Text
  | .node id figure label =>
    nodeName id ++ " [shape=".toList ++ figure.name ++ [',', ' '] ++ labelAttribute label ++ [']']
  | .edge source target role =>
    nodeName source ++ " -> ".toList ++ nodeName target ++
      match role.name? with
      | none => []
      | some name => [' ', '['] ++ labelAttribute name ++ [']']

def Statement.line (statement : Statement) : Text :=
  [' ', ' '] ++ statement.text ++ [';', '\n']

def render (statements : List Statement) : Text :=
  "digraph \x7b\n".toList ++ statements.flatMap Statement.line ++ "\x7d\n".toList

def dot (value : Value) : Text := render (ofValue value)

end LispForms.Graph
