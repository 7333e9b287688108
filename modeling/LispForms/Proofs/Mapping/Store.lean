import LispForms.Proofs.Mapping.Order
import LispForms.Proofs.Text.ByteOrder

/-!
# Store — a mapping whose written keys are kept beside the pairs

A store finds its pairs by texts that were taken down as the pairs were added, and has them in the
order of the bytes of these texts.  A `Mapping` has no such texts and writes a key anew wherever its
written form is asked for.  Both come to the same: every text in a store is the written form of the
key beside it, and without the texts the store is the mapping.

Main statement: `ofList_forgets`.
-/

namespace LispForms

/-- Key and value pairs, each under a text, in the order of the texts' bytes. -/
structure Store where
  entries : List (Text × Value × Value)

namespace Store

/-- Puts a pair under a text. The pair that stood there gives way and comes back. -/
def put (text : Text) (pair : Value × Value) :
    List (Text × Value × Value) → Option (Value × Value) × List (Text × Value × Value)
  | [] => (none, [(text, pair)])
  | (head, old) :: rest =>
    -- The text that is there already stays.
    if text = head then (some old, (head, pair) :: rest)
    else if Text.encode text < Text.encode head then (none, (text, pair) :: (head, old) :: rest)
    else
      let later := put text pair rest
      (later.1, (head, old) :: later.2)

def exchange (s : Store) (key value : Value) : Option Value × Store :=
  let later := put key.display (key, value) s.entries
  (later.1.map Prod.snd, ⟨later.2⟩)

def insert (s : Store) (key value : Value) : Store := (s.exchange key value).2

def get? (s : Store) (key : Value) : Option Value :=
  (s.entries.find? fun entry => entry.1 = key.display).map fun entry => entry.2.2

def ofList (pairs : List (Value × Value)) : Store :=
  pairs.foldl (fun s pair => s.insert pair.1 pair.2) ⟨[]⟩

/-- The inspected form of an entry, which shows the text that is kept. -/
def inspectEntry (entry : Text × Value × Value) : Text :=
  Text.quoted entry.1 ++ ':' :: ' ' :: '(' ::
    (entry.2.1.inspect ++ ',' :: ' ' :: (entry.2.2.inspect ++ [')']))

def inspect (s : Store) : Text :=
  Value.recordOpening ++ Text.joined [',', ' '] (s.entries.map inspectEntry) ++ Value.recordClosing

/-! ## 1. The texts of a mapping's keys -/

/-- The pair under the written form of its key. -/
def labelled (pair : Value × Value) : Text × Value × Value := (pair.1.display, pair)

def ofMapping (m : Mapping) : Store := ⟨m.entries.map labelled⟩

theorem put_labelled (pair : Value × Value) (entries : List (Value × Value)) :
    (put pair.1.display pair (entries.map labelled)).1.map Prod.snd
        = (Mapping.place pair.1.display pair entries).1 ∧
      (put pair.1.display pair (entries.map labelled)).2
        = (Mapping.place pair.1.display pair entries).2.map labelled := by
  -- At every entry both compare the same two texts, one by bytes and one by code points.
  induction entries with
  | nil => exact ⟨rfl, rfl⟩
  | cons head rest ih =>
    rw [List.map_cons, labelled, put, Mapping.place]
    simp only [Text.encode_lt_encode_iff]
    split
    · next heq => exact ⟨rfl, by rw [← heq]; rfl⟩
    · split
      · exact ⟨rfl, rfl⟩
      · exact ⟨ih.1, congrArg _ ih.2⟩

theorem exchange_ofMapping (m : Mapping) (key value : Value) :
    (ofMapping m).exchange key value
      = ((m.exchange key value).1, ofMapping (m.exchange key value).2) :=
  Prod.ext (put_labelled (key, value) m.entries).1
    (congrArg Store.mk (put_labelled (key, value) m.entries).2)

theorem insert_ofMapping (m : Mapping) (key value : Value) :
    (ofMapping m).insert key value = ofMapping (m.insert key value) :=
  congrArg Prod.snd (exchange_ofMapping m key value)

theorem get?_ofMapping (m : Mapping) (key : Value) : (ofMapping m).get? key = m.get? key := by
  rw [get?, ofMapping, List.find?_map, Option.map_map]
  rfl

theorem inspect_ofMapping (m : Mapping) : (ofMapping m).inspect = m.inspect := by
  rw [inspect, ofMapping, List.map_map, Mapping.inspect, Value.inspectRecord_eq]
  rfl

/-! ## 2. Stores from pairs -/

theorem ofList_eq (pairs : List (Value × Value)) :
    ofList pairs = ofMapping (Mapping.ofList pairs) := by
  show pairs.foldl (fun s pair => s.insert pair.1 pair.2) (ofMapping .empty)
    = ofMapping (pairs.foldl (fun m pair => m.insert pair.1 pair.2) .empty)
  exact List.foldl_hom ofMapping fun m pair => insert_ofMapping m pair.1 pair.2

/-- A store that is made by any sequence of insertions has every pair under the written form of its
key, and without the texts it is the mapping made by the same insertions.  It gives back, finds and
shows what that mapping does. -/
theorem ofList_forgets (history : List (Value × Value)) (key value : Value) :
    (∀ entry ∈ (ofList history).entries, entry.1 = entry.2.1.display) ∧
    (ofList history).entries.map Prod.snd = (Mapping.ofList history).entries ∧
    ((ofList history).exchange key value).1 = ((Mapping.ofList history).exchange key value).1 ∧
    (ofList history).get? key = (Mapping.ofList history).get? key ∧
    (ofList history).inspect = (Mapping.ofList history).inspect := by
  rw [ofList_eq, exchange_ofMapping]
  refine ⟨?_, ?_, rfl, get?_ofMapping _ key, inspect_ofMapping _⟩
  · exact List.forall_mem_map.mpr fun _ _ => rfl
  · rw [ofMapping, List.map_map]
    exact List.map_id _

end Store

end LispForms
