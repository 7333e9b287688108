import LispForms.Proofs.Mapping.Order
import LispForms.Proofs.Text.ByteOrder
import Mathlib.Data.List.Induction
import Mathlib.Data.List.Nodup
import Mathlib.Logic.Function.Basic

/-!
# Filing — a mapping is a finite map from written keys to pairs

A `Filing` is the plain view of a mapping: under a text stands the pair, if any, whose key is
written with that text, and a new pair takes the place of the one that stood there.  `Refines` says
that a mapping lists a filing in the order of the texts.  Insertion keeps it, so it holds of every
mapping that is made by inserting, whatever the pairs are.

Main statement: `ofList_finiteMap`.
-/

namespace LispForms.Mapping

/-! ## 1. What one insertion changes -/

theorem Ascending.eq_of_display_eq {entries : List (Value × Value)} (h : Ascending entries)
    {x y : Value × Value} (hx : x ∈ entries) (hy : y ∈ entries)
    (hxy : x.1.display = y.1.display) : x = y := by
  have hne : ∀ a b : Text, a < b → a ≠ b := by
    rintro a _ hlt rfl
    exact List.lt_irrefl a hlt
  have hdistinct : (entries.map fun entry => entry.1.display).Nodup :=
    List.pairwise_map.mpr (h.imp fun hlt => hne _ _ hlt)
  exact List.inj_on_of_nodup_map hdistinct hx hy hxy

theorem mem_place_self (text : Text) (entry : Value × Value) (entries : List (Value × Value)) :
    entry ∈ (place text entry entries).2 := by
  induction entries with
  | nil => exact List.mem_singleton_self entry
  | cons head rest ih =>
    rw [place]
    split
    · exact List.mem_cons_self
    · split
      · exact List.mem_cons_self
      · exact List.mem_cons_of_mem _ ih

theorem mem_place_of_mem {text : Text} {entry x : Value × Value} {entries : List (Value × Value)}
    (hx : x ∈ entries) (hne : x.1.display ≠ text) : x ∈ (place text entry entries).2 := by
  induction entries with
  | nil => exact absurd hx List.not_mem_nil
  | cons head rest ih =>
    rw [place]
    split
    · next heq =>
      rcases List.mem_cons.mp hx with rfl | hx
      · exact absurd heq.symm hne
      · exact List.mem_cons_of_mem _ hx
    · split
      · exact List.mem_cons_of_mem _ hx
      · rcases List.mem_cons.mp hx with rfl | hx
        · exact List.mem_cons_self
        · exact List.mem_cons_of_mem _ (ih hx)

/-- The new entry is there, and of the others those that are written differently. -/
theorem mem_place_iff {entry x : Value × Value} {entries : List (Value × Value)}
    (h : Ascending entries) :
    x ∈ (place entry.1.display entry entries).2 ↔
      x = entry ∨ x ∈ entries ∧ x.1.display ≠ entry.1.display := by
  constructor
  · intro hx
    by_cases hdisplay : x.1.display = entry.1.display
    · exact .inl ((ascending_place h).eq_of_display_eq hx (mem_place_self _ _ _) hdisplay)
    · rcases mem_of_mem_place hx with rfl | hx
      · exact absurd rfl hdisplay
      · exact .inr ⟨hx, hdisplay⟩
  · rintro (rfl | ⟨hx, hne⟩)
    · exact mem_place_self _ _ _
    · exact mem_place_of_mem hx hne

/-- The value that comes back is the one that stood under the text.  The walk stops at the first
greater text, and as the entries ascend it has missed nothing. -/
theorem place_fst {text : Text} {entry : Value × Value} {entries : List (Value × Value)}
    (h : Ascending entries) :
    (place text entry entries).1 =
      (entries.find? fun entry => entry.1.display = text).map Prod.snd := by
  induction entries with
  | nil => rfl
  | cons head rest ih =>
    obtain ⟨hhead, hrest⟩ := List.pairwise_cons.mp h
    rw [place]
    split
    · next heq => simp [heq]
    · next hne =>
      split
      · next hlt =>
        have hnone : ∀ x ∈ head :: rest, x.1.display ≠ text := fun x hx heq => by
          rcases List.mem_cons.mp hx with rfl | hx
          · exact hne heq.symm
          · exact List.lt_irrefl _ (List.lt_trans hlt (heq ▸ hhead x hx))
        rw [List.find?_eq_none.mpr fun x hx => by simpa using hnone x hx]
        rfl
      · rw [List.find?_cons_of_neg (by simpa using Ne.symm hne)]
        exact ih hrest

theorem length_place (text : Text) (entry : Value × Value) (entries : List (Value × Value)) :
    (place text entry entries).2.length =
      entries.length + if (place text entry entries).1 = none then 1 else 0 := by
  induction entries with
  | nil => rfl
  | cons head rest ih =>
    rw [place]
    split
    · rfl
    · split
      · rfl
      · simp only [List.length_cons, ih]
        omega

/-! ## 2. Filings -/

/-- A finite map from texts to pairs, as the function that finds the pair under a text. -/
abbrev Filing := Text → Option (Value × Value)

namespace Filing

def empty : Filing := fun _ => none

/-- The pair stands under the written form of its key from now on. -/
def file (filed : Filing) (pair : Value × Value) : Filing :=
  Function.update filed pair.1.display (some pair)

def ofList (pairs : List (Value × Value)) : Filing := pairs.foldl file empty

theorem ofList_concat (pairs : List (Value × Value)) (pair : Value × Value) :
    ofList (pairs ++ [pair]) = (ofList pairs).file pair := by
  simp [ofList]

/-- Under a text stands the last of the pairs whose key is written so. -/
theorem ofList_eq_find? (pairs : List (Value × Value)) (text : Text) :
    ofList pairs text = pairs.reverse.find? fun pair => pair.1.display = text := by
  induction pairs using List.reverseRecOn with
  | nil => rfl
  | append_singleton pairs pair ih =>
    rw [ofList_concat, List.reverse_concat, file]
    by_cases h : pair.1.display = text
    · subst h
      simp
    · rw [Function.update_of_ne (Ne.symm h), ih, List.find?_cons_of_neg (by simpa using h)]

theorem ofList_eq_some_iff {pairs : List (Value × Value)} {text : Text} {pair : Value × Value} :
    ofList pairs text = some pair ↔
      pair.1.display = text ∧
        ∃ before after, pairs = before ++ pair :: after ∧ ∀ x ∈ after, x.1.display ≠ text := by
  rw [ofList_eq_find?, List.find?_eq_some_iff_append, decide_eq_true_iff]
  refine and_congr_right fun _ => ?_
  constructor
  · rintro ⟨after, before, hpairs, hafter⟩
    refine ⟨before.reverse, after.reverse, ?_, fun x hx => ?_⟩
    · simpa using List.reverse_eq_iff.mp hpairs
    · simpa using hafter x (List.mem_reverse.mp hx)
  · rintro ⟨before, after, rfl, hafter⟩
    refine ⟨after.reverse, before.reverse, by simp, fun x hx => ?_⟩
    simpa using hafter x (List.mem_reverse.mp hx)

end Filing

/-! ## 3. Refinement -/

/-- The mapping lists the filing in the order of the texts. -/
structure Refines (m : Mapping) (filed : Filing) : Prop where
  ascending : Ascending m.entries
  filed_iff : ∀ text pair, filed text = some pair ↔ pair ∈ m.entries ∧ pair.1.display = text

theorem refines_empty : empty.Refines Filing.empty where
  ascending := List.Pairwise.nil
  filed_iff _ _ := by simp [Filing.empty, empty]

namespace Refines

variable {m : Mapping} {filed : Filing}

theorem mem_insert_iff (h : m.Refines filed) (key value : Value) (pair : Value × Value) :
    pair ∈ (m.insert key value).entries ↔
      pair = (key, value) ∨ pair ∈ m.entries ∧ pair.1.display ≠ key.display :=
  @mem_place_iff (key, value) pair _ h.ascending

theorem insert (h : m.Refines filed) (key value : Value) :
    (m.insert key value).Refines (filed.file (key, value)) where
  ascending := @ascending_place (key, value) _ h.ascending
  filed_iff text pair := by
    rw [h.mem_insert_iff, Filing.file]
    by_cases htext : text = key.display
    · subst htext
      rw [Function.update_self]
      constructor
      · rintro ⟨rfl⟩
        exact ⟨.inl rfl, rfl⟩
      · rintro ⟨rfl | ⟨-, hne⟩, hdisplay⟩
        · rfl
        · exact absurd hdisplay hne
    · rw [Function.update_of_ne htext, h.filed_iff]
      constructor
      · rintro ⟨hpair, rfl⟩
        exact ⟨.inr ⟨hpair, htext⟩, rfl⟩
      · rintro ⟨rfl | ⟨hpair, -⟩, rfl⟩
        · exact absurd rfl htext
        · exact ⟨hpair, rfl⟩

theorem exchange_fst (h : m.Refines filed) (key value : Value) :
    (m.exchange key value).1 = m.get? key :=
  place_fst h.ascending

theorem size_insert (h : m.Refines filed) (key value : Value) :
    (m.insert key value).size = m.size + if m.get? key = none then 1 else 0 := by
  rw [← h.exchange_fst key value]
  exact length_place _ _ _

/-- Look-up reads the filing under the written form of the key. -/
theorem get?_eq (h : m.Refines filed) (key : Value) :
    m.get? key = (filed key.display).map Prod.snd := by
  have hfind : filed key.display = m.entries.find? fun entry => entry.1.display = key.display := by
    cases hfound : m.entries.find? fun entry => entry.1.display = key.display with
    | none =>
      refine Option.eq_none_iff_forall_ne_some.mpr fun pair hfiled => ?_
      obtain ⟨hpair, hdisplay⟩ := (h.filed_iff _ _).mp hfiled
      exact List.find?_eq_none.mp hfound pair hpair (decide_eq_true hdisplay)
    | some pair =>
      have hdisplay : pair.1.display = key.display := by simpa using List.find?_some hfound
      exact (h.filed_iff _ _).mpr ⟨List.mem_of_find?_eq_some hfound, hdisplay⟩
  rw [get?, hfind]

end Refines

theorem refines_ofList (history : List (Value × Value)) :
    (ofList history).Refines (Filing.ofList history) := by
  induction history using List.reverseRecOn with
  | nil => exact refines_empty
  | append_singleton history pair ih =>
    rw [ofList_concat, Filing.ofList_concat]
    exact ih.insert pair.1 pair.2

/-- An entry is the last pair with its written key. -/
theorem mem_entries_ofList_iff (history : List (Value × Value)) (pair : Value × Value) :
    pair ∈ (ofList history).entries ↔
      ∃ before after, history = before ++ pair :: after ∧
        ∀ x ∈ after, x.1.display ≠ pair.1.display := by
  have hfiled := (refines_ofList history).filed_iff pair.1.display pair
  rw [Filing.ofList_eq_some_iff] at hfiled
  simpa using hfiled.symm

/-- Every written key of the pairs has its entry. -/
theorem exists_entry_iff (history : List (Value × Value)) (text : Text) :
    (∃ entry ∈ (ofList history).entries, entry.1.display = text) ↔
      ∃ pair ∈ history, pair.1.display = text := by
  constructor
  · rintro ⟨entry, hentry, hdisplay⟩
    exact ⟨entry, mem_of_mem_ofList hentry, hdisplay⟩
  · rintro ⟨pair, hpair, hdisplay⟩
    have hsome : (Filing.ofList history text).isSome = true := by
      rw [Filing.ofList_eq_find?, List.find?_isSome]
      exact ⟨pair, List.mem_reverse.mpr hpair, decide_eq_true hdisplay⟩
    obtain ⟨entry, hentry⟩ := Option.isSome_iff_exists.mp hsome
    exact ⟨entry, ((refines_ofList history).filed_iff text entry).mp hentry⟩

theorem isEmpty_iff_size_eq_zero (m : Mapping) : m.isEmpty = true ↔ m.size = 0 := by
  rw [isEmpty, List.isEmpty_iff, size, List.length_eq_zero_iff]

/-- A mapping made by any sequence of insertions is a finite map from written keys to pairs.  It
lists the pair filed under each text, in ascending order of the texts' UTF-8 bytes.  An insertion
gives back what look-up found before, is seen by look-up under every key written like its own,
replaces the whole pair that had this written key, and adds one to the size if there was none.
What is left of the sequence is the last pair of each of its written keys. -/
theorem ofList_finiteMap (history : List (Value × Value)) (key value key' : Value) :
    (∀ text pair, Filing.ofList history text = some pair ↔
      pair ∈ (ofList history).entries ∧ pair.1.display = text) ∧
    ((ofList history).entries.Pairwise fun a b =>
      Text.encode a.1.display < Text.encode b.1.display) ∧
    (ofList history).get? key = (Filing.ofList history key.display).map Prod.snd ∧
    ((ofList history).exchange key value).1 = (ofList history).get? key ∧
    ((ofList history).insert key value).get? key' =
      (if key'.display = key.display then some value else (ofList history).get? key') ∧
    (∀ pair, pair ∈ ((ofList history).insert key value).entries ↔
      pair = (key, value) ∨ pair ∈ (ofList history).entries ∧ pair.1.display ≠ key.display) ∧
    ((ofList history).insert key value).size =
      (ofList history).size + (if (ofList history).get? key = none then 1 else 0) ∧
    ((ofList history).isEmpty = true ↔ (ofList history).size = 0) ∧
    (∀ pair, pair ∈ (ofList history).entries ↔
      ∃ before after, history = before ++ pair :: after ∧
        ∀ x ∈ after, x.1.display ≠ pair.1.display) ∧
    ∀ text, (∃ entry ∈ (ofList history).entries, entry.1.display = text) ↔
      ∃ pair ∈ history, pair.1.display = text := by
  have h := refines_ofList history
  refine ⟨h.filed_iff, h.ascending.imp Text.encode_lt_encode, h.get?_eq key,
    h.exchange_fst key value, get?_insert _ key value key', h.mem_insert_iff key value,
    h.size_insert key value, isEmpty_iff_size_eq_zero _, mem_entries_ofList_iff history,
    exists_entry_iff history⟩

example (value value' : Value) :
    (ofList [(.symbol ['1'], value), (.number 1, value')]).entries = [(.number 1, value')] := rfl

end LispForms.Mapping
