import LispForms.Value.Display

/-!
# Tree — what lies inside a value

Lists, vectors and mappings are nodes with children, the children of a mapping being its keys and
values in turn.  Proofs about values go by induction on the children, functions on values by
`fold`, and both treat the three kinds of container as one.
-/

namespace LispForms.Value

/-- The bracket that a container is written in; atoms have none. -/
def bracket? : Value → Option Bracket
  | .list _ => some .round
  | .vector _ => some .square
  | .mapping _ => some .curly
  | .number _ => none
  | .string _ => none
  | .symbol _ => none

/-- The values directly inside a value, in the order in which they are written. -/
def children : Value → List Value
  | .list items => items
  | .vector items => items
  | .mapping entries => keysAndValues entries
  | .number _ => []
  | .string _ => []
  | .symbol _ => []

theorem bracket?_sequence (shape : Shape) (items : List Value) :
    (sequence shape items).bracket? = some shape.bracket := by
  cases shape <;> rfl

theorem children_sequence (shape : Shape) (items : List Value) :
    (sequence shape items).children = items := by
  cases shape <;> rfl

theorem children_eq_nil {v : Value} (h : v.bracket? = none) : v.children = [] := by
  cases v <;> simp_all [bracket?, children]

@[simp] theorem keysAndValues_nil : keysAndValues [] = [] := rfl

@[simp] theorem keysAndValues_cons (entry : Value × Value) (rest : List (Value × Value)) :
    keysAndValues (entry :: rest) = entry.1 :: entry.2 :: keysAndValues rest := rfl

theorem mem_keysAndValues {entries : List (Value × Value)} {v : Value} :
    v ∈ keysAndValues entries ↔ ∃ entry ∈ entries, v = entry.1 ∨ v = entry.2 := by
  simp [keysAndValues]

theorem keysAndValues_injective {a b : List (Value × Value)}
    (h : keysAndValues a = keysAndValues b) : a = b := by
  induction a generalizing b with
  | nil => cases b <;> simp_all
  | cons entry rest ih =>
    cases b with
    | nil => simp at h
    | cons entry' rest' =>
      obtain ⟨hkey, hvalue, hrest⟩ : entry.1 = entry'.1 ∧ entry.2 = entry'.2 ∧
          keysAndValues rest = keysAndValues rest' := by simpa using h
      rw [ih hrest, Prod.ext hkey hvalue]

/-- A container is what its bracket and its children say. -/
theorem eq_of_children_eq {v w : Value} (hbracket : v.bracket? = w.bracket?)
    (hcontainer : v.bracket? ≠ none) (h : v.children = w.children) : v = w := by
  cases v <;> cases w <;> simp_all [bracket?, children]
  case mapping.mapping => exact keysAndValues_injective h

theorem display_of_bracket? {v : Value} {bracket : Bracket} (h : v.bracket? = some bracket) :
    v.display = bracketed bracket (Text.spaced (v.children.map display)) := by
  cases v <;> simp_all [bracket?, children]

/-! ## 1. Induction -/

/-- A property passes from the values inside a value to the value. -/
def Inherited (motive : Value → Prop) : Prop :=
  ∀ v : Value, (∀ child ∈ v.children, motive child) → motive v

mutual

private theorem induction_value {motive : Value → Prop} (step : Inherited motive) :
    ∀ v : Value, motive v
  | .list items => step _ (induction_items step items)
  | .vector items => step _ (induction_items step items)
  | .mapping entries => step _ (induction_entries step entries)
  | .number _ => step _ (by simp [children])
  | .string _ => step _ (by simp [children])
  | .symbol _ => step _ (by simp [children])

private theorem induction_items {motive : Value → Prop} (step : Inherited motive) :
    ∀ items : List Value, ∀ child ∈ items, motive child
  | [] => by simp
  | item :: rest => List.forall_mem_cons.mpr ⟨induction_value step item, induction_items step rest⟩

private theorem induction_entries {motive : Value → Prop} (step : Inherited motive) :
    ∀ entries : List (Value × Value), ∀ child ∈ keysAndValues entries, motive child
  | [] => by simp
  | (key, value) :: rest =>
    List.forall_mem_cons.mpr ⟨induction_value step key,
      List.forall_mem_cons.mpr ⟨induction_value step value, induction_entries step rest⟩⟩

end

/-- What holds of a value as soon as it holds of the values inside holds of every value. -/
@[elab_as_elim]
theorem induction_on_children {motive : Value → Prop} (v : Value)
    (step : ∀ v : Value, (∀ child ∈ v.children, motive child) → motive v) : motive v :=
  induction_value step v

/-! ## 2. Folding, nodes and depth -/

section
variable {α : Type} (f : Value → List α → α)

mutual

/-- Works a value out from what its children have been worked out to. -/
def fold : Value → α
  | .list items => f (.list items) (foldItems items)
  | .vector items => f (.vector items) (foldItems items)
  | .mapping entries => f (.mapping entries) (foldEntries entries)
  | .number n => f (.number n) []
  | .string literal => f (.string literal) []
  | .symbol name => f (.symbol name) []

def foldItems : List Value → List α
  | [] => []
  | item :: rest => fold item :: foldItems rest

def foldEntries : List (Value × Value) → List α
  | [] => []
  | (key, value) :: rest => fold key :: fold value :: foldEntries rest

end

theorem foldItems_eq (items : List Value) : foldItems f items = items.map (fold f) := by
  induction items with
  | nil => rfl
  | cons item rest ih => rw [foldItems, ih, List.map_cons]

theorem foldEntries_eq (entries : List (Value × Value)) :
    foldEntries f entries = (keysAndValues entries).map (fold f) := by
  induction entries with
  | nil => rfl
  | cons entry rest ih => rw [foldEntries, ih, keysAndValues_cons, List.map_cons, List.map_cons]

theorem fold_eq (v : Value) : v.fold f = f v (v.children.map (fold f)) := by
  cases v <;> simp [fold, foldItems_eq, foldEntries_eq, children]

end

/-- The value itself and all values inside it, in the order in which they are written. -/
def nodes (v : Value) : List Value := v.fold fun node below => node :: below.flatten

/-- The levels of nesting: one for an atom or an empty container. -/
def depth (v : Value) : Nat := v.fold fun _ below => 1 + below.foldr max 0

theorem nodes_eq (v : Value) : v.nodes = v :: v.children.flatMap nodes := by
  rw [nodes, fold_eq, List.flatMap_def]
  rfl

theorem depth_eq (v : Value) : v.depth = 1 + (v.children.map depth).foldr max 0 := by
  rw [depth, fold_eq]
  rfl

theorem mem_nodes_self (v : Value) : v ∈ v.nodes := by
  rw [nodes_eq]
  exact List.mem_cons_self

/-- What holds at every node holds at the value and at every node of its children. -/
theorem forall_mem_nodes_iff {p : Value → Prop} {v : Value} :
    (∀ node ∈ v.nodes, p node) ↔ p v ∧ ∀ child ∈ v.children, ∀ node ∈ child.nodes, p node := by
  rw [nodes_eq, List.forall_mem_cons]
  simp only [List.mem_flatMap]
  constructor
  · rintro ⟨hv, h⟩
    exact ⟨hv, fun child hchild node hnode => h node ⟨child, hchild, hnode⟩⟩
  · rintro ⟨hv, h⟩
    exact ⟨hv, fun node ⟨child, hchild, hnode⟩ => h child hchild node hnode⟩

theorem forall_mem_nodes_atom {p : Value → Prop} {v : Value} (hatom : v.bracket? = none)
    (h : p v) : ∀ node ∈ v.nodes, p node := by
  rw [forall_mem_nodes_iff, children_eq_nil hatom]
  exact ⟨h, List.forall_mem_nil _⟩

theorem depth_pos (v : Value) : 0 < v.depth := by
  rw [depth_eq]
  omega

theorem foldr_max_le_iff {depths : List Nat} {n : Nat} :
    depths.foldr max 0 ≤ n ↔ ∀ d ∈ depths, d ≤ n := by
  induction depths with
  | nil => simp
  | cons d rest ih => rw [List.foldr_cons, Nat.max_le, ih, List.forall_mem_cons]

theorem depth_le_iff {v : Value} {n : Nat} :
    v.depth ≤ n + 1 ↔ ∀ child ∈ v.children, child.depth ≤ n := by
  rw [depth_eq, Nat.add_comm, Nat.add_le_add_iff_right, foldr_max_le_iff, List.forall_mem_map]

end LispForms.Value
