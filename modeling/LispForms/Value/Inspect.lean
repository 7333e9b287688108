import LispForms.Text.Quoted
import LispForms.Value.Display

/-!
# Inspection — a form of a value that names every constructor

Unlike the written form, the inspected form tells a number from a symbol of the same spelling, and
a string from a symbol. It stays on one line whatever the texts hold. Like the written form it is
built from its end; `inspect_list` and its neighbours say what comes out.
-/

namespace LispForms.Value

/-- A constructor's name with its argument in round brackets, the closing one left to come. -/
def applied (name argument : Text) : Text := name ++ '(' :: argument

def recordOpening : Text := "Mapping \x7b entries: \x7b".toList

def recordClosing : Text := "\x7d \x7d".toList

mutual

/-- The inspected form of a value, then the rest. -/
def inspectThen : Value → Text → Text
  | .list items, rest =>
    applied "List".toList ('[' :: inspectItemsThen items [] (']' :: ')' :: rest))
  | .vector items, rest =>
    applied "Vector".toList ('[' :: inspectItemsThen items [] (']' :: ')' :: rest))
  | .mapping entries, rest =>
    applied "Mapping".toList
      (recordOpening ++ inspectEntriesThen entries [] (recordClosing ++ ')' :: rest))
  | .number n, rest => applied "Number".toList (Numeral.write n ++ ')' :: rest)
  | .string literal, rest => applied "String".toList (Text.quoted literal ++ ')' :: rest)
  | .symbol name, rest => applied "Symbol".toList (Text.quoted name ++ ')' :: rest)

def inspectItemsThen : List Value → Text → Text → Text
  | [], _, rest => rest
  | item :: more, gap, rest => gap ++ item.inspectThen (inspectItemsThen more [',', ' '] rest)

/-- A row of entries, the first after the gap and all others after a comma; then the rest. An entry
is its key's written form in quotes, and then the inspected forms of key and value. -/
def inspectEntriesThen : List (Value × Value) → Text → Text → Text
  | [], _, rest => rest
  | (key, value) :: more, gap, rest =>
    gap ++ (Text.quoted key.display ++ ':' :: ' ' :: '(' ::
      key.inspectThen (',' :: ' ' :: value.inspectThen (')' ::
        inspectEntriesThen more [',', ' '] rest)))

end

def inspect (v : Value) : Text := v.inspectThen []

def inspectEntry (entry : Value × Value) : Text :=
  Text.quoted entry.1.display ++ ':' :: ' ' :: '(' ::
    (entry.1.inspect ++ ',' :: ' ' :: (entry.2.inspect ++ [')']))

def inspectRecord (entries : List (Value × Value)) : Text :=
  recordOpening ++ inspectEntriesThen entries [] recordClosing

mutual

theorem inspectThen_append : ∀ (v : Value) (a b : Text),
    v.inspectThen (a ++ b) = v.inspectThen a ++ b
  | .list items, a, b => by
    simp [inspectThen, applied, ← inspectItemsThen_append items [] (']' :: ')' :: a) b]
  | .vector items, a, b => by
    simp [inspectThen, applied, ← inspectItemsThen_append items [] (']' :: ')' :: a) b]
  | .mapping entries, a, b => by
    simp [inspectThen, applied,
      ← inspectEntriesThen_append entries [] (recordClosing ++ ')' :: a) b]
  | .number n, a, b => by simp [inspectThen, applied]
  | .string literal, a, b => by simp [inspectThen, applied]
  | .symbol name, a, b => by simp [inspectThen, applied]

theorem inspectItemsThen_append : ∀ (items : List Value) (gap a b : Text),
    inspectItemsThen items gap (a ++ b) = inspectItemsThen items gap a ++ b
  | [], gap, a, b => by simp [inspectItemsThen]
  | item :: more, gap, a, b => by
    simp [inspectItemsThen, inspectItemsThen_append more [',', ' '] a b,
      inspectThen_append item _ b]

theorem inspectEntriesThen_append : ∀ (entries : List (Value × Value)) (gap a b : Text),
    inspectEntriesThen entries gap (a ++ b) = inspectEntriesThen entries gap a ++ b
  | [], gap, a, b => by simp [inspectEntriesThen]
  | (key, value) :: more, gap, a, b => by
    simp only [inspectEntriesThen, inspectEntriesThen_append more [',', ' '] a b,
      ← List.cons_append, inspectThen_append value _ b, inspectThen_append key _ b,
      List.append_assoc]

end

theorem inspectThen_eq (v : Value) (rest : Text) : v.inspectThen rest = v.inspect ++ rest := by
  rw [inspect, ← inspectThen_append, List.nil_append]

theorem inspectItemsThen_comma (items : List Value) (rest : Text) :
    inspectItemsThen items [',', ' '] rest
      = items.flatMap (fun item => ',' :: ' ' :: item.inspect) ++ rest := by
  induction items with
  | nil => rfl
  | cons item more ih => simp [inspectItemsThen, inspectThen_eq, ih]

theorem inspectItemsThen_nil (items : List Value) (rest : Text) :
    inspectItemsThen items [] rest = Text.joined [',', ' '] (items.map inspect) ++ rest := by
  cases items with
  | nil => rfl
  | cons item more =>
    rw [inspectItemsThen, inspectThen_eq, inspectItemsThen_comma, List.map_cons, Text.joined_cons]
    simp [List.flatMap_map]

theorem inspectEntriesThen_comma (entries : List (Value × Value)) (rest : Text) :
    inspectEntriesThen entries [',', ' '] rest
      = entries.flatMap (fun entry => ',' :: ' ' :: inspectEntry entry) ++ rest := by
  induction entries with
  | nil => rfl
  | cons entry more ih => simp [inspectEntriesThen, inspectThen_eq, inspectEntry, ih]

theorem inspectEntriesThen_nil (entries : List (Value × Value)) (rest : Text) :
    inspectEntriesThen entries [] rest
      = Text.joined [',', ' '] (entries.map inspectEntry) ++ rest := by
  cases entries with
  | nil => rfl
  | cons entry more =>
    rw [inspectEntriesThen, inspectEntriesThen_comma, List.map_cons, Text.joined_cons]
    simp [inspectThen_eq, inspectEntry, List.flatMap_map]

@[simp] theorem inspect_list (items : List Value) :
    (list items).inspect
      = "List([".toList ++ Text.joined [',', ' '] (items.map inspect) ++ [']', ')'] := by
  simp [inspect, inspectThen, applied, inspectItemsThen_nil]

@[simp] theorem inspect_vector (items : List Value) :
    (vector items).inspect
      = "Vector([".toList ++ Text.joined [',', ' '] (items.map inspect) ++ [']', ')'] := by
  simp [inspect, inspectThen, applied, inspectItemsThen_nil]

theorem inspectRecord_eq (entries : List (Value × Value)) :
    inspectRecord entries
      = recordOpening ++ Text.joined [',', ' '] (entries.map inspectEntry) ++ recordClosing := by
  simp [inspectRecord, inspectEntriesThen_nil]

@[simp] theorem inspect_mapping (entries : List (Value × Value)) :
    (mapping entries).inspect = "Mapping(".toList ++ inspectRecord entries ++ [')'] := by
  simp [inspect, inspectThen, applied, inspectRecord, inspectEntriesThen_nil]

@[simp] theorem inspect_number (n : Int64) :
    (number n).inspect = "Number(".toList ++ Numeral.write n ++ [')'] := by
  simp [inspect, inspectThen, applied]

@[simp] theorem inspect_string (literal : Text) :
    (string literal).inspect = "String(".toList ++ Text.quoted literal ++ [')'] := by
  simp [inspect, inspectThen, applied]

@[simp] theorem inspect_symbol (name : Text) :
    (symbol name).inspect = "Symbol(".toList ++ Text.quoted name ++ [')'] := by
  simp [inspect, inspectThen, applied]

end LispForms.Value
