import LispForms.Value.Basic

/-!
# Display — the written form of a value

Sequences and mappings are written in their brackets with single spaces inside, numbers as their
shortest numerals, strings and symbols as their own text. The form is built from its end, so that
no part of it is copied; `display_list` and its neighbours say what comes out.
-/

namespace LispForms.Value

def bracketed (bracket : Bracket) (text : Text) : Text :=
  bracket.opening :: text ++ [bracket.closing]

mutual

/-- The written form of a value, then the rest. -/
def displayThen : Value → Text → Text
  | .list items, rest =>
    Bracket.round.opening :: displayItemsThen items [] (Bracket.round.closing :: rest)
  | .vector items, rest =>
    Bracket.square.opening :: displayItemsThen items [] (Bracket.square.closing :: rest)
  | .mapping entries, rest =>
    Bracket.curly.opening :: displayEntriesThen entries [] (Bracket.curly.closing :: rest)
  | .number n, rest => Numeral.write n ++ rest
  | .string literal, rest => literal ++ rest
  | .symbol name, rest => name ++ rest

/-- The written forms of a row of values, the first after the gap and all others after a space;
then the rest. -/
def displayItemsThen : List Value → Text → Text → Text
  | [], _, rest => rest
  | item :: more, gap, rest => gap ++ item.displayThen (displayItemsThen more [' '] rest)

def displayEntriesThen : List (Value × Value) → Text → Text → Text
  | [], _, rest => rest
  | (key, value) :: more, gap, rest =>
    gap ++ key.displayThen (' ' :: value.displayThen (displayEntriesThen more [' '] rest))

end

def display (v : Value) : Text := v.displayThen []

def keysAndValues (entries : List (Value × Value)) : List Value :=
  entries.flatMap fun entry => [entry.1, entry.2]

mutual

theorem displayThen_append : ∀ (v : Value) (a b : Text),
    v.displayThen (a ++ b) = v.displayThen a ++ b
  | .list items, a, b => by
    simp [displayThen, ← displayItemsThen_append items [] (Bracket.round.closing :: a) b]
  | .vector items, a, b => by
    simp [displayThen, ← displayItemsThen_append items [] (Bracket.square.closing :: a) b]
  | .mapping entries, a, b => by
    simp [displayThen, ← displayEntriesThen_append entries [] (Bracket.curly.closing :: a) b]
  | .number n, a, b => by simp [displayThen]
  | .string literal, a, b => by simp [displayThen]
  | .symbol name, a, b => by simp [displayThen]

theorem displayItemsThen_append : ∀ (items : List Value) (gap a b : Text),
    displayItemsThen items gap (a ++ b) = displayItemsThen items gap a ++ b
  | [], gap, a, b => by simp [displayItemsThen]
  | item :: more, gap, a, b => by
    simp [displayItemsThen, displayItemsThen_append more [' '] a b, displayThen_append item _ b]

theorem displayEntriesThen_append : ∀ (entries : List (Value × Value)) (gap a b : Text),
    displayEntriesThen entries gap (a ++ b) = displayEntriesThen entries gap a ++ b
  | [], gap, a, b => by simp [displayEntriesThen]
  | (key, value) :: more, gap, a, b => by
    simp [displayEntriesThen, displayEntriesThen_append more [' '] a b,
      displayThen_append value _ b, ← displayThen_append key _ b]

end

theorem displayThen_eq (v : Value) (rest : Text) : v.displayThen rest = v.display ++ rest := by
  rw [display, ← displayThen_append, List.nil_append]

theorem displayItemsThen_space (items : List Value) (rest : Text) :
    displayItemsThen items [' '] rest
      = items.flatMap (fun item => ' ' :: item.display) ++ rest := by
  induction items with
  | nil => rfl
  | cons item more ih => simp [displayItemsThen, displayThen_eq, ih]

theorem displayItemsThen_nil (items : List Value) (rest : Text) :
    displayItemsThen items [] rest = Text.spaced (items.map display) ++ rest := by
  cases items with
  | nil => rfl
  | cons item more =>
    rw [displayItemsThen, displayThen_eq, displayItemsThen_space, List.map_cons, Text.spaced,
      Text.joined_cons]
    simp [List.flatMap_map]

/-- A row of entries is written like the row of their keys and values. -/
theorem displayEntriesThen_eq (entries : List (Value × Value)) (gap rest : Text) :
    displayEntriesThen entries gap rest = displayItemsThen (keysAndValues entries) gap rest := by
  induction entries generalizing gap with
  | nil => rfl
  | cons entry more ih =>
    rw [displayEntriesThen, ih]
    rfl

@[simp] theorem display_list (items : List Value) :
    (list items).display = bracketed .round (Text.spaced (items.map display)) := by
  simp [display, displayThen, displayItemsThen_nil, bracketed]

@[simp] theorem display_vector (items : List Value) :
    (vector items).display = bracketed .square (Text.spaced (items.map display)) := by
  simp [display, displayThen, displayItemsThen_nil, bracketed]

@[simp] theorem display_mapping (entries : List (Value × Value)) :
    (mapping entries).display
      = bracketed .curly (Text.spaced ((keysAndValues entries).map display)) := by
  simp [display, displayThen, displayEntriesThen_eq, displayItemsThen_nil, bracketed]

@[simp] theorem display_number (n : Int64) : (number n).display = Numeral.write n := by
  simp [display, displayThen]

@[simp] theorem display_string (literal : Text) : (string literal).display = literal := by
  simp [display, displayThen]

@[simp] theorem display_symbol (name : Text) : (symbol name).display = name := by
  simp [display, displayThen]

end LispForms.Value
