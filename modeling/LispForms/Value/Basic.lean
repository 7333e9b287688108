import LispForms.Numeral
import LispForms.Token.Basic

/-!
# Values — the trees that forms denote

A value is a number, a string, a symbol, or a list, vector or mapping of values. Strings keep the
quotes and escapes they were written with. The entries of a mapping are key and value pairs;
`LispForms.Mapping` builds them in the order of the keys' written forms.

Main statement: `same_iff`, which makes equality of values decidable.
-/

namespace LispForms

inductive Value where
  | list (items : List Value)
  | vector (items : List Value)
  | mapping (entries : List (Value × Value))
  | number (n : Int64)
  /-- A string literal, with its quotes and escapes. -/
  | string (literal : Text)
  | symbol (name : Text)
  deriving Inhabited

namespace Value

def sequence : Shape → List Value → Value
  | .list, items => .list items
  | .vector, items => .vector items

def call (name : Text) (arguments : List Value) : Value := .list (.symbol name :: arguments)

mutual

/-- The number of nodes: the value itself and all values inside it, keys included. -/
def size : Value → Nat
  | .list items => 1 + sizeItems items
  | .vector items => 1 + sizeItems items
  | .mapping entries => 1 + sizeEntries entries
  | .number _ => 1
  | .string _ => 1
  | .symbol _ => 1

def sizeItems : List Value → Nat
  | [] => 0
  | item :: rest => item.size + sizeItems rest

def sizeEntries : List (Value × Value) → Nat
  | [] => 0
  | (key, value) :: rest => key.size + value.size + sizeEntries rest

end

mutual

def same : Value → Value → Bool
  | .list a, .list b => sameItems a b
  | .vector a, .vector b => sameItems a b
  | .mapping a, .mapping b => sameEntries a b
  | .number a, .number b => a == b
  | .string a, .string b => a == b
  | .symbol a, .symbol b => a == b
  | _, _ => false

def sameItems : List Value → List Value → Bool
  | [], [] => true
  | a :: as, b :: bs => same a b && sameItems as bs
  | _, _ => false

def sameEntries : List (Value × Value) → List (Value × Value) → Bool
  | [], [] => true
  | (k, v) :: as, (l, w) :: bs => same k l && same v w && sameEntries as bs
  | _, _ => false

end

mutual

theorem same_iff : ∀ a b : Value, same a b = true ↔ a = b
  | .list a, b => by cases b <;> simp [same, sameItems_iff a]
  | .vector a, b => by cases b <;> simp [same, sameItems_iff a]
  | .mapping a, b => by cases b <;> simp [same, sameEntries_iff a]
  | .number a, b => by cases b <;> simp [same]
  | .string a, b => by cases b <;> simp [same]
  | .symbol a, b => by cases b <;> simp [same]

theorem sameItems_iff : ∀ a b : List Value, sameItems a b = true ↔ a = b
  | [], b => by cases b <;> simp [sameItems]
  | a :: as, b => by cases b <;> simp [sameItems, same_iff a, sameItems_iff as]

theorem sameEntries_iff : ∀ a b : List (Value × Value), sameEntries a b = true ↔ a = b
  | [], b => by cases b <;> simp [sameEntries]
  | (k, v) :: as, b => by
    cases b <;> simp [sameEntries, Prod.ext_iff, same_iff k, same_iff v, sameEntries_iff as]

end

instance : DecidableEq Value := fun a b => decidable_of_iff _ (same_iff a b)

theorem size_pos (v : Value) : 0 < v.size := by
  cases v <;> simp only [size] <;> omega

/-- Evaluation leaves every value as it is: each form stands for itself. -/
def eval (v : Value) : Value := v

end Value

end LispForms
