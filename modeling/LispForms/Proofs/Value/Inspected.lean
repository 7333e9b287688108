import LispForms.Mapping
import LispForms.Proofs.Text.Quoted
import LispForms.Proofs.Value.Tree

/-!
# Inspected — the inspected form tells values apart, on one line

The constructor's name comes first, and each of its arguments ends at a bracket, a comma or a quote
that nothing inside can be taken for.  So the inspected form of a value can be split off the front
of any text.

Main statement: `inspect_unambiguous`.
-/

namespace LispForms.Value

def constructorName : Value → String
  | .list _ => "List"
  | .vector _ => "Vector"
  | .mapping _ => "Mapping"
  | .number _ => "Number"
  | .string _ => "String"
  | .symbol _ => "Symbol"

theorem exists_argument (v : Value) (rest : Text) :
    ∃ argument, v.inspectThen rest = applied v.constructorName.toList argument := by
  cases v <;> exact ⟨_, rfl⟩

theorem constructorName_eq {v w : Value} {rest rest' : Text}
    (h : v.inspectThen rest = w.inspectThen rest') : v.constructorName = w.constructorName := by
  have hname : ∀ v : Value, ∀ c ∈ v.constructorName.toList, c ≠ '(' := by
    intro v
    cases v <;> simp [constructorName]
  obtain ⟨argument, hv⟩ := exists_argument v rest
  obtain ⟨argument', hw⟩ := exists_argument w rest'
  rw [hv, hw] at h
  have hlist := Text.eq_of_delimited (hname v) (hname w) (fun h => h rfl) (fun h => h rfl) h
  exact String.toList_inj.mp hlist.1

/-! ## 1. Rows -/

/-- What stands in front of a value or entry in a row. -/
def IsGap (gap : Text) : Prop := gap = [] ∨ gap = [',', ' ']

theorem isGap_nil : IsGap [] := .inl rfl

theorem isGap_comma : IsGap [',', ' '] := .inr rfl

theorem item_ne_closing {gap : Text} (hgap : IsGap gap) (v : Value) (behind rest : Text) :
    gap ++ v.inspectThen behind ≠ ']' :: rest := by
  rcases hgap with rfl | rfl
  · cases v <;> simp [inspectThen, applied]
  · simp

theorem entry_ne_closing {gap : Text} (hgap : IsGap gap) (text behind rest : Text) :
    gap ++ (Text.quoted text ++ behind) ≠ recordClosing ++ rest := by
  rcases hgap with rfl | rfl <;> simp [Text.quoted, recordClosing]

/-! ## 2. Values -/

theorem applied_inj {name argument argument' : Text}
    (h : applied name argument = applied name argument') : argument = argument' :=
  (List.cons.inj (List.append_cancel_left h)).2

-- The constructor's name tells which value it is; its argument then splits off by induction.
mutual

theorem inspectThen_split : ∀ (v w : Value) {rest rest' : Text},
    v.inspectThen rest = w.inspectThen rest' → v = w ∧ rest = rest'
  | .list items, w, rest, rest', h => by
    cases w with
    | list items' =>
      have hitems := (List.cons.inj (applied_inj h)).2
      obtain ⟨heq, hrest⟩ := inspectItemsThen_split items items' isGap_nil hitems
      exact ⟨by rw [heq], (List.cons.inj hrest).2⟩
    | _ => exact absurd (constructorName_eq h) (by simp [constructorName])
  | .vector items, w, rest, rest', h => by
    cases w with
    | vector items' =>
      have hitems := (List.cons.inj (applied_inj h)).2
      obtain ⟨heq, hrest⟩ := inspectItemsThen_split items items' isGap_nil hitems
      exact ⟨by rw [heq], (List.cons.inj hrest).2⟩
    | _ => exact absurd (constructorName_eq h) (by simp [constructorName])
  | .mapping entries, w, rest, rest', h => by
    cases w with
    | mapping entries' =>
      have hentries := List.append_cancel_left (applied_inj h)
      obtain ⟨heq, hrest⟩ := inspectEntriesThen_split entries entries' isGap_nil hentries
      exact ⟨by rw [heq], (List.cons.inj hrest).2⟩
    | _ => exact absurd (constructorName_eq h) (by simp [constructorName])
  | .number n, w, rest, rest', h => by
    cases w with
    | number m =>
      have hend : ¬ (Char.isDigit ')' = true ∨ ')' = '-') := by decide
      obtain ⟨heq, hrest⟩ := Text.eq_of_delimited (fun _ => Numeral.mem_write)
        (fun _ => Numeral.mem_write) hend hend (applied_inj h)
      exact ⟨by rw [Numeral.write_inj heq], (List.cons.inj hrest).2⟩
    | _ => exact absurd (constructorName_eq h) (by simp [constructorName])
  | .string literal, w, rest, rest', h => by
    cases w with
    | string literal' =>
      obtain ⟨heq, hrest⟩ := Text.quoted_split (applied_inj h)
      exact ⟨by rw [heq], (List.cons.inj hrest).2⟩
    | _ => exact absurd (constructorName_eq h) (by simp [constructorName])
  | .symbol name, w, rest, rest', h => by
    cases w with
    | symbol name' =>
      obtain ⟨heq, hrest⟩ := Text.quoted_split (applied_inj h)
      exact ⟨by rw [heq], (List.cons.inj hrest).2⟩
    | _ => exact absurd (constructorName_eq h) (by simp [constructorName])

theorem inspectItemsThen_split : ∀ (items items' : List Value) {gap rest rest' : Text},
    IsGap gap →
    inspectItemsThen items gap (']' :: rest) = inspectItemsThen items' gap (']' :: rest') →
    items = items' ∧ rest = rest'
  | [], items', gap, rest, rest', hgap, h => by
    cases items' with
    | nil => exact ⟨rfl, (List.cons.inj h).2⟩
    | cons item' more' => exact absurd h.symm (item_ne_closing hgap item' _ _)
  | item :: more, items', gap, rest, rest', hgap, h => by
    cases items' with
    | nil => exact absurd h (item_ne_closing hgap item _ _)
    | cons item' more' =>
      obtain ⟨hitem, hmore⟩ := inspectThen_split item item' (List.append_cancel_left h)
      obtain ⟨heq, hrest⟩ := inspectItemsThen_split more more' isGap_comma hmore
      exact ⟨by rw [hitem, heq], hrest⟩

theorem inspectEntriesThen_split : ∀ (entries entries' : List (Value × Value))
    {gap rest rest' : Text}, IsGap gap →
    inspectEntriesThen entries gap (recordClosing ++ rest)
      = inspectEntriesThen entries' gap (recordClosing ++ rest') →
    entries = entries' ∧ rest = rest'
  | [], entries', gap, rest, rest', hgap, h => by
    cases entries' with
    | nil => exact ⟨rfl, List.append_cancel_left h⟩
    | cons entry' more' => exact absurd h.symm (entry_ne_closing hgap _ _ _)
  | (key, value) :: more, entries', gap, rest, rest', hgap, h => by
    cases entries' with
    | nil => exact absurd h (entry_ne_closing hgap _ _ _)
    | cons entry' more' =>
      -- The key follows once more in the inspected form, which settles it.
      obtain ⟨-, hpair⟩ := Text.quoted_split (List.append_cancel_left h)
      have hkeys := (List.cons.inj (List.cons.inj (List.cons.inj hpair).2).2).2
      obtain ⟨hkey, hvalues⟩ := inspectThen_split key entry'.1 hkeys
      have hvalue' := (List.cons.inj (List.cons.inj hvalues).2).2
      obtain ⟨hvalue, hmore⟩ := inspectThen_split value entry'.2 hvalue'
      obtain ⟨heq, hrest⟩ := inspectEntriesThen_split more more' isGap_comma
        (List.cons.inj hmore).2
      have hentry : (key, value) = entry' := Prod.ext hkey hvalue
      exact ⟨by rw [heq, hentry], hrest⟩

end

theorem inspect_inj {v w : Value} (h : v.inspect = w.inspect) : v = w :=
  (inspectThen_split v w h).1

theorem inspectRecord_inj {entries entries' : List (Value × Value)}
    (h : inspectRecord entries = inspectRecord entries') : entries = entries' := by
  have hentries := List.append_cancel_left h
  rw [← List.append_nil recordClosing] at hentries
  exact (inspectEntriesThen_split entries entries' isGap_nil hentries).1

/-! ## 3. One line -/

theorem lineFeed_notMem_row {items : List Value} (hitems : ∀ item ∈ items, '\n' ∉ item.inspect) :
    '\n' ∉ Text.joined [',', ' '] (items.map inspect) :=
  Text.lineFeed_notMem_joined (by decide) (List.forall_mem_map.mpr hitems)

theorem lineFeed_notMem_inspectRecord {entries : List (Value × Value)}
    (hentries : ∀ child ∈ keysAndValues entries, '\n' ∉ child.inspect) :
    '\n' ∉ inspectRecord entries := by
  have hrow : '\n' ∉ Text.joined [',', ' '] (entries.map inspectEntry) := by
    refine Text.lineFeed_notMem_joined (by decide) (List.forall_mem_map.mpr fun entry hentry => ?_)
    have hkey := hentries entry.1 (mem_keysAndValues.mpr ⟨entry, hentry, .inl rfl⟩)
    have hvalue := hentries entry.2 (mem_keysAndValues.mpr ⟨entry, hentry, .inr rfl⟩)
    simp [inspectEntry, Text.lineFeed_notMem_quoted, hkey, hvalue]
  rw [inspectRecord_eq]
  exact List.not_mem_append (List.not_mem_append (by decide) hrow) (by decide)

theorem lineFeed_notMem_inspect (v : Value) : '\n' ∉ v.inspect := by
  induction v using induction_on_children with
  | step v ih =>
    cases v with
    | list items =>
      simpa [children] using lineFeed_notMem_row ih
    | vector items =>
      simpa [children] using lineFeed_notMem_row ih
    | mapping entries => simpa using lineFeed_notMem_inspectRecord ih
    | number n =>
      have hnumeral : '\n' ∉ Numeral.write n := fun h => absurd (Numeral.mem_write h) (by decide)
      simpa using hnumeral
    | string literal => simpa using Text.lineFeed_notMem_quoted literal
    | symbol name => simpa using Text.lineFeed_notMem_quoted name

/-- Values, and mappings by themselves, are equal exactly if their inspected forms are; no inspected
form has a line feed in it.  A number and the symbol of its numeral are written alike but inspected
differently, and so are a string and the symbol of its text. -/
theorem inspect_unambiguous :
    (∀ v w : Value, v.inspect = w.inspect ↔ v = w) ∧
    (∀ v : Value, '\n' ∉ v.inspect) ∧
    (∀ m m' : Mapping, m.inspect = m'.inspect ↔ m = m') ∧
    (∀ m : Mapping, '\n' ∉ m.inspect) ∧
    (∀ n : Int64, (number n).display = (symbol (Numeral.write n)).display ∧
      (number n).inspect ≠ (symbol (Numeral.write n)).inspect) ∧
    ∀ text : Text, (string text).display = (symbol text).display ∧
      (string text).inspect ≠ (symbol text).inspect := by
  refine ⟨fun v w => ⟨inspect_inj, congrArg inspect⟩, lineFeed_notMem_inspect,
    fun m m' => ⟨fun h => ?_, congrArg Mapping.inspect⟩, fun m => ?_,
    fun n => ⟨by simp, fun h => ?_⟩, fun text => ⟨by simp, fun h => ?_⟩⟩
  · exact congrArg Mapping.mk (inspectRecord_inj h)
  · exact lineFeed_notMem_inspectRecord fun child _ => lineFeed_notMem_inspect child
  · cases inspect_inj h
  · cases inspect_inj h

end LispForms.Value
