import LispForms.Value.Inspect

/-!
# Mappings — entries found by the written form of their keys

Any value can be a key. Two keys with one written form are one key, whatever values they are; the
entries stand in ascending order of the keys' written forms, by code point. These forms are not
kept; `LispForms.Store` keeps them, and comes to the same.
-/

namespace LispForms

/-- Key and value pairs in the order of the keys' written forms. -/
structure Mapping where
  entries : List (Value × Value)
  deriving DecidableEq, Inhabited

namespace Mapping

def empty : Mapping := ⟨[]⟩

/-- Puts an entry in its place among others, given the written form of its key. An entry whose key
has that form gives way, and its value comes back. -/
def place (text : Text) (entry : Value × Value) :
    List (Value × Value) → Option Value × List (Value × Value)
  | [] => (none, [entry])
  | head :: rest =>
    if text = head.1.display then (some head.2, entry :: rest)
    -- All entries from here on have greater keys.
    else if text < head.1.display then (none, entry :: head :: rest)
    else
      let placed := place text entry rest
      (placed.1, head :: placed.2)

/-- Adds a pair; gives back the value that the key had before. -/
def exchange (m : Mapping) (key value : Value) : Option Value × Mapping :=
  let placed := place key.display (key, value) m.entries
  (placed.1, ⟨placed.2⟩)

/-- Adds a pair. Both key and value of an entry with the same written key are replaced. -/
def insert (m : Mapping) (key value : Value) : Mapping := (m.exchange key value).2

def get? (m : Mapping) (key : Value) : Option Value :=
  (m.entries.find? fun entry => entry.1.display = key.display).map Prod.snd

def size (m : Mapping) : Nat := m.entries.length

def isEmpty (m : Mapping) : Bool := m.entries.isEmpty

/-- The pairs added one after another, so that the last of equally written keys wins. -/
def ofList (pairs : List (Value × Value)) : Mapping :=
  pairs.foldl (fun m pair => m.insert pair.1 pair.2) empty

def toValue (m : Mapping) : Value := .mapping m.entries

def inspect (m : Mapping) : Text := Value.inspectRecord m.entries

@[simp] theorem ofList_nil : ofList [] = empty := rfl

theorem ofList_concat (pairs : List (Value × Value)) (key value : Value) :
    ofList (pairs ++ [(key, value)]) = (ofList pairs).insert key value := by
  simp [ofList]

end Mapping

end LispForms
