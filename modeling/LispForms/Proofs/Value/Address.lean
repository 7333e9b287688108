import LispForms.Proofs.Value.Tree

/-!
# Address — where a value stands inside another

An address says which child to go to, level by level.  The addresses inside a value are listed in
the order in which the value is written, so that they go along with its nodes.
-/

namespace LispForms.Value

/-- Which child to go to, level by level. -/
abbrev Address := List Nat

/-- The value at an address. -/
def at? (v : Value) : Address → Option Value
  | [] => some v
  | k :: place => v.children[k]?.bind fun child => child.at? place

/-- The addresses inside the children of a row, the first of which is child number `k`. -/
def spread : Nat → List (List Address) → List Address
  | _, [] => []
  | k, first :: more => first.map (k :: ·) ++ spread (k + 1) more

/-- The addresses inside the value, in the order in which it is written. -/
def addresses (v : Value) : List Address := v.fold fun _ below => [] :: spread 0 below

theorem addresses_eq (v : Value) : v.addresses = [] :: spread 0 (v.children.map addresses) := by
  rw [addresses, fold_eq]
  rfl

theorem at?_cons_of_getElem? {v child : Value} {k : Nat} (h : v.children[k]? = some child)
    (place : Address) : v.at? (k :: place) = child.at? place := by
  rw [at?, h]
  rfl

/-! ## 1. Sizes -/

theorem sizeEntries_eq (entries : List (Value × Value)) :
    sizeEntries entries = sizeItems (keysAndValues entries) := by
  induction entries with
  | nil => rfl
  | cons entry rest ih =>
    obtain ⟨key, value⟩ := entry
    rw [sizeEntries, ih, keysAndValues_cons, sizeItems, sizeItems, Nat.add_assoc]

theorem size_eq (v : Value) : v.size = 1 + sizeItems v.children := by
  cases v <;> simp [size, children, sizeItems, sizeEntries_eq]

theorem length_spread {items : List Value} (k : Nat)
    (hitems : ∀ item ∈ items, item.addresses.length = item.size) :
    (spread k (items.map addresses)).length = sizeItems items := by
  induction items generalizing k with
  | nil => rfl
  | cons item more ih =>
    obtain ⟨hitem, hmore⟩ := List.forall_mem_cons.mp hitems
    rw [List.map_cons, spread, List.length_append, List.length_map, hitem, ih (k + 1) hmore,
      sizeItems]

theorem length_addresses (v : Value) : v.addresses.length = v.size := by
  induction v using induction_on_children with
  | step v ih =>
    rw [addresses_eq, List.length_cons, length_spread 0 ih, size_eq, Nat.add_comm]

/-! ## 2. Addresses and nodes -/

theorem at?_spread {v : Value} (before : List Value) {items : List Value}
    (hv : v.children = before ++ items)
    (hitems : ∀ item ∈ items, item.addresses.map item.at? = item.nodes.map some) :
    (spread before.length (items.map addresses)).map v.at? = (items.flatMap nodes).map some := by
  induction items generalizing before with
  | nil => rfl
  | cons item more ih =>
    obtain ⟨hitem, hmore⟩ := List.forall_mem_cons.mp hitems
    have hchild : v.children[before.length]? = some item := by
      rw [hv, List.getElem?_append_right (Nat.le_refl _), Nat.sub_self]
      rfl
    have hfirst : (item.addresses.map (before.length :: ·)).map v.at? = item.nodes.map some := by
      rw [← hitem, List.map_map]
      exact List.map_congr_left fun place _ => at?_cons_of_getElem? hchild place
    have hrest := ih (before ++ [item]) (by simp [hv]) hmore
    rw [List.length_append, List.length_singleton] at hrest
    rw [List.map_cons, spread, List.map_append, hfirst, hrest, List.flatMap_cons, List.map_append]

/-- The nodes are the values at the addresses, in the same order. -/
theorem map_at?_addresses (v : Value) : v.addresses.map v.at? = v.nodes.map some := by
  induction v using induction_on_children with
  | step v ih =>
    rw [addresses_eq, nodes_eq, List.map_cons, List.map_cons]
    exact congrArg _ (at?_spread [] (List.nil_append _).symm ih)

theorem length_nodes (v : Value) : v.nodes.length = v.size := by
  have hlength := congrArg List.length (map_at?_addresses v)
  rw [List.length_map, List.length_map, length_addresses] at hlength
  exact hlength.symm

theorem le_head_of_mem_spread {rows : List (List Address)} {k : Nat} {place : Address}
    (h : place ∈ spread k rows) : ∃ j rest, place = j :: rest ∧ k ≤ j := by
  induction rows generalizing k with
  | nil => exact absurd h List.not_mem_nil
  | cons first more ih =>
    rcases List.mem_append.mp h with h | h
    · obtain ⟨rest, -, rfl⟩ := List.mem_map.mp h
      exact ⟨k, rest, rfl, Nat.le_refl k⟩
    · obtain ⟨j, rest, rfl, hj⟩ := ih h
      exact ⟨j, rest, rfl, Nat.le_of_succ_le hj⟩

theorem nodup_spread {rows : List (List Address)} (k : Nat) (hrows : ∀ row ∈ rows, row.Nodup) :
    (spread k rows).Nodup := by
  induction rows generalizing k with
  | nil => exact List.nodup_nil
  | cons first more ih =>
    obtain ⟨hfirst, hmore⟩ := List.forall_mem_cons.mp hrows
    refine List.nodup_append.mpr ⟨?_, ih (k + 1) hmore, ?_⟩
    · exact List.Pairwise.map _ (fun _ _ hne heq => hne (List.cons.inj heq).2) hfirst
    · rintro _ hplace _ hplace' rfl
      obtain ⟨rest, -, rfl⟩ := List.mem_map.mp hplace
      obtain ⟨j, rest', heq, hj⟩ := le_head_of_mem_spread hplace'
      have := (List.cons.inj heq).1
      omega

/-- No address is listed twice. -/
theorem nodup_addresses (v : Value) : v.addresses.Nodup := by
  induction v using induction_on_children with
  | step v ih =>
    rw [addresses_eq]
    refine List.nodup_cons.mpr ⟨fun h => ?_, nodup_spread 0 (List.forall_mem_map.mpr ih)⟩
    obtain ⟨j, rest, heq, -⟩ := le_head_of_mem_spread h
    cases heq

end LispForms.Value
