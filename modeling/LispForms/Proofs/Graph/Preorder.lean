import LispForms.Proofs.Graph.Dot
import LispForms.Proofs.Value.Address
import Mathlib.Logic.Relation

/-!
# Preorder — the graph of a value is a tree, numbered as the value is written

For each child in turn come its subtree and the edge that leads to it.  Lists and vectors on the one
hand and mappings on the other differ only in where that edge comes from and what it is called, so
the facts below are shown for a row of children (`childStatements`) and hold of all three.

Main statement: `ofValue_preorder`.
-/

namespace LispForms.Graph

open Value (Address addresses spread)

/-- What the edge to child `k` is called. -/
def incoming (v : Value) (k : Nat) : Role :=
  match v with
  | .mapping _ => if k % 2 = 0 then .key else .value
  | _ => .item

theorem incoming_key (entries : List (Value × Value)) (k : Nat) :
    incoming (.mapping entries) (2 * k) = .key := if_pos (Nat.mul_mod_right 2 k)

theorem incoming_value (entries : List (Value × Value)) (k : Nat) :
    incoming (.mapping entries) (2 * k + 1) = .value := if_neg (by omega)

/-- A value in a mapping hangs below the child before it, its key; all other children hang below
their parent. -/
def sourceOf (role : Role) (parent previous : Nat) : Nat :=
  match role with
  | .value => previous
  | _ => parent

/-- The statements for a row of children, given the number of the first of them among all children,
the number of the node before it, and the next number that is free. -/
def childStatements (roles : Nat → Role) (parent : Nat) :
    List Value → Nat → Nat → Nat → List Statement
  | [], _, _, _ => []
  | child :: more, k, previous, next =>
    statements child next ++ .edge (sourceOf (roles k) parent previous) next (roles k) ::
      childStatements roles parent more (k + 1) next (next + child.size)

theorem itemStatements_eq (items : List Value) (parent k previous next : Nat) :
    itemStatements items parent next
      = childStatements (fun _ => .item) parent items k previous next := by
  induction items generalizing k previous next with
  | nil => rfl
  | cons item more ih => rw [itemStatements, childStatements, ih (k + 1) next]; rfl

theorem entryStatements_eq (entries : List (Value × Value)) (parent k previous next : Nat)
    (hk : k % 2 = 0) : entryStatements entries parent next
      = childStatements (fun k => if k % 2 = 0 then .key else .value) parent
          (Value.keysAndValues entries) k previous next := by
  induction entries generalizing k previous next with
  | nil => rfl
  | cons entry more ih =>
    obtain ⟨key, value⟩ := entry
    have hk' : (k + 1) % 2 ≠ 0 := by omega
    rw [entryStatements, Value.keysAndValues_cons, childStatements, childStatements, if_pos hk,
      if_neg hk', ih (k + 1 + 1) (next + key.size) _ (by omega)]
    rfl

/-- A node, and then the row of its children. -/
theorem statements_eq (v : Value) (id : Nat) :
    statements v id = .node id (figure v) (label v) ::
      childStatements (incoming v) id v.children 0 id (id + 1) := by
  cases v with
  | list items => rw [statements, itemStatements_eq items id 0 id]; rfl
  | vector items => rw [statements, itemStatements_eq items id 0 id]; rfl
  | mapping entries => rw [statements, entryStatements_eq entries id 0 id _ rfl]; rfl
  | number n => rfl
  | string literal => rfl
  | symbol name => rfl

/-! ## 1. Nodes -/

def Statement.node? : Statement → Option (Nat × Figure × Text)
  | .node id figure label => some (id, figure, label)
  | .edge _ _ _ => none

def Statement.edge? : Statement → Option (Nat × Nat × Role)
  | .node _ _ _ => none
  | .edge source target role => some (source, target, role)

def nodeFor (entry : Value × Nat) : Nat × Figure × Text :=
  (entry.2, figure entry.1, label entry.1)

def declared (statements : List Statement) : List Nat :=
  (statements.filterMap Statement.node?).map Prod.fst

theorem nodes_childStatements {roles : Nat → Role} {parent : Nat} {children : List Value}
    (hchildren : ∀ child ∈ children, ∀ id,
      (statements child id).filterMap Statement.node? = (child.nodes.zipIdx id).map nodeFor)
    (k previous next : Nat) :
    (childStatements roles parent children k previous next).filterMap Statement.node?
      = ((children.flatMap Value.nodes).zipIdx next).map nodeFor := by
  induction children generalizing k previous next with
  | nil => rfl
  | cons child more ih =>
    obtain ⟨hchild, hmore⟩ := List.forall_mem_cons.mp hchildren
    rw [childStatements, List.filterMap_append, hchild, List.flatMap_cons, List.zipIdx_append,
      List.map_append, Value.length_nodes]
    exact congrArg _ (ih hmore (k + 1) next (next + child.size))

theorem nodes_statements (v : Value) : ∀ id,
    (statements v id).filterMap Statement.node? = (v.nodes.zipIdx id).map nodeFor := by
  induction v using Value.induction_on_children with
  | step v ih =>
    intro id
    rw [statements_eq, List.filterMap_cons, Value.nodes_eq, List.zipIdx_cons, List.map_cons]
    exact congrArg _ (nodes_childStatements ih 0 id (id + 1))

theorem declared_node (id : Nat) (figure : Figure) (label : Text) (rest : List Statement) :
    declared (.node id figure label :: rest) = id :: declared rest := rfl

theorem declared_edge (source target : Nat) (role : Role) (rest : List Statement) :
    declared (.edge source target role :: rest) = declared rest := rfl

theorem mem_declared_statements (v : Value) (id : Nat) : id ∈ declared (statements v id) := by
  rw [statements_eq]
  exact List.mem_cons_self

theorem declared_ofValue (v : Value) : declared (ofValue v) = List.range v.nodes.length := by
  rw [declared, ofValue, nodes_statements, List.map_map, List.range_eq_range']
  exact List.zipIdx_map_snd 0 v.nodes

/-! ## 2. Targets -/

def targets (statements : List Statement) : List Nat :=
  (statements.filterMap Statement.edge?).map fun edge => edge.2.1

theorem targets_append (a b : List Statement) : targets (a ++ b) = targets a ++ targets b := by
  simp [targets]

theorem mem_targets {statements : List Statement} {target : Nat} (h : target ∈ targets statements) :
    ∃ source role, .edge source target role ∈ statements := by
  obtain ⟨edge, hedge, rfl⟩ := List.mem_map.mp h
  obtain ⟨statement, hstatement, heq⟩ := List.mem_filterMap.mp hedge
  cases statement with
  | node => cases heq
  | edge source target role =>
    cases heq
    exact ⟨source, role, hstatement⟩

theorem targets_childStatements {roles : Nat → Role} {parent : Nat} {children : List Value}
    (hchildren : ∀ child ∈ children, ∀ id,
      (targets (statements child id)).Perm (List.range' (id + 1) (Value.sizeItems child.children)))
    (k previous next : Nat) :
    (targets (childStatements roles parent children k previous next)).Perm
      (List.range' next (Value.sizeItems children)) := by
  induction children generalizing k previous next with
  | nil => exact List.Perm.nil
  | cons child more ih =>
    obtain ⟨hchild, hmore⟩ := List.forall_mem_cons.mp hchildren
    have hedge : targets (childStatements roles parent (child :: more) k previous next)
        = targets (statements child next) ++ next ::
            targets (childStatements roles parent more (k + 1) next (next + child.size)) := by
      rw [childStatements, targets_append]
      rfl
    have hrange : List.range' next (Value.sizeItems (child :: more))
        = next :: (List.range' (next + 1) (Value.sizeItems child.children)
            ++ List.range' (next + child.size) (Value.sizeItems more)) := by
      rw [Value.sizeItems, ← List.range'_append_1, child.size_eq, Nat.add_comm 1,
        List.range'_succ]
      rfl
    -- The edge to the child comes behind those inside it, but has the least number as its target.
    rw [hedge, hrange]
    exact List.perm_middle.trans
      (((hchild next).append (ih hmore (k + 1) next (next + child.size))).cons next)

theorem targets_statements (v : Value) : ∀ id,
    (targets (statements v id)).Perm (List.range' (id + 1) (Value.sizeItems v.children)) := by
  induction v using Value.induction_on_children with
  | step v ih =>
    intro id
    rw [statements_eq]
    exact targets_childStatements ih 0 id (id + 1)

/-! ## 3. Order -/

/-- Every edge leads to a larger number, and both its ends have been declared before it, there or
in what went before. -/
def Ordered : List Nat → List Statement → Prop
  | _, [] => True
  | before, .node id _ _ :: rest => Ordered (before ++ [id]) rest
  | before, .edge source target _ :: rest =>
    (source < target ∧ source ∈ before ∧ target ∈ before) ∧ Ordered before rest

theorem ordered_append (before : List Nat) (a b : List Statement) :
    Ordered before (a ++ b) ↔ Ordered before a ∧ Ordered (before ++ declared a) b := by
  induction a generalizing before with
  | nil => simp [Ordered, declared]
  | cons statement rest ih =>
    cases statement with
    | node id figure label =>
      rw [List.cons_append, Ordered, Ordered, ih, declared_node, List.append_assoc]
      rfl
    | edge source target role =>
      rw [List.cons_append, Ordered, Ordered, ih, declared_edge]
      exact and_assoc.symm

theorem sourceOf_cases (role : Role) (parent previous : Nat) :
    sourceOf role parent previous = parent ∨ sourceOf role parent previous = previous := by
  cases role
  · exact .inl rfl
  · exact .inl rfl
  · exact .inr rfl

theorem ordered_childStatements {roles : Nat → Role} {parent : Nat} {children : List Value}
    (hchildren : ∀ child ∈ children, ∀ id before, Ordered before (statements child id))
    (k : Nat) {previous next : Nat} {before : List Nat} (hparent : parent < next ∧ parent ∈ before)
    (hprevious : previous < next ∧ previous ∈ before) :
    Ordered before (childStatements roles parent children k previous next) := by
  induction children generalizing k previous next before with
  | nil => trivial
  | cons child more ih =>
    obtain ⟨hchild, hmore⟩ := List.forall_mem_cons.mp hchildren
    have hsource : sourceOf (roles k) parent previous < next ∧
        sourceOf (roles k) parent previous ∈ before := by
      rcases sourceOf_cases (roles k) parent previous with heq | heq <;> rw [heq]
      · exact hparent
      · exact hprevious
    have hnext := mem_declared_statements child next
    have hlt : next < next + child.size := Nat.lt_add_of_pos_right child.size_pos
    rw [childStatements, ordered_append]
    refine ⟨hchild next before, ⟨hsource.1, List.mem_append_left _ hsource.2,
      List.mem_append_right _ hnext⟩, ih hmore (k + 1) ?_ ?_⟩
    · exact ⟨Nat.lt_trans hparent.1 hlt, List.mem_append_left _ hparent.2⟩
    · exact ⟨hlt, List.mem_append_right _ hnext⟩

theorem ordered_statements (v : Value) : ∀ id before, Ordered before (statements v id) := by
  induction v using Value.induction_on_children with
  | step v ih =>
    intro id before
    have hparent : id < id + 1 ∧ id ∈ before ++ [id] := ⟨Nat.lt_succ_self id, by simp⟩
    rw [statements_eq]
    exact ordered_childStatements ih 0 hparent hparent

theorem ends_declared {v : Value} {before after : List Statement} {source target : Nat}
    {role : Role} (h : ofValue v = before ++ .edge source target role :: after) :
    source < target ∧ source ∈ declared before ∧ target ∈ declared before := by
  have hordered := ordered_statements v 0 []
  rw [← ofValue, h, ordered_append] at hordered
  exact hordered.2.1

/-- From node zero edges lead to every node. -/
theorem reachable (v : Value) (i : Nat) (hi : i < v.nodes.length) :
    Relation.ReflTransGen (fun source target => ∃ role, .edge source target role ∈ ofValue v)
      0 i := by
  induction i using Nat.strongRecOn with
  | ind i ih =>
    rcases Nat.eq_zero_or_pos i with rfl | hpos
    · exact .refl
    · have htarget : i ∈ targets (ofValue v) := by
        rw [Value.length_nodes, Value.size_eq] at hi
        exact (targets_statements v 0).mem_iff.mpr (List.mem_range'_1.mpr (by omega))
      obtain ⟨source, role, hedge⟩ := mem_targets htarget
      obtain ⟨before, after, hsplit⟩ := List.append_of_mem hedge
      have hlt := (ends_declared hsplit).1
      exact (ih source hlt (Nat.lt_trans hlt hi)).tail ⟨role, hedge⟩

/-! ## 4. What edges stand for -/

/-- What the graph shows of a value: its items below a list or vector, the keys below a mapping, and
below each key its value. -/
inductive Link (v : Value) : Address → Address → Role → Prop
  | item {place : Address} {shape : Shape} {items : List Value} {k : Nat}
      (h : v.at? place = some (.sequence shape items)) (hk : k < items.length) :
      Link v place (place ++ [k]) .item
  | key {place : Address} {entries : List (Value × Value)} {k : Nat}
      (h : v.at? place = some (.mapping entries)) (hk : k < entries.length) :
      Link v place (place ++ [2 * k]) .key
  | value {place : Address} {entries : List (Value × Value)} {k : Nat}
      (h : v.at? place = some (.mapping entries)) (hk : k < entries.length) :
      Link v (place ++ [2 * k]) (place ++ [2 * k + 1]) .value

theorem Link.below {v child : Value} {k : Nat} (hchild : v.children[k]? = some child)
    {p q : Address} {role : Role} (h : Link child p q role) : Link v (k :: p) (k :: q) role := by
  cases h with
  | item h hk => exact .item (by rw [Value.at?_cons_of_getElem? hchild, h]) hk
  | key h hk => exact .key (by rw [Value.at?_cons_of_getElem? hchild, h]) hk
  | value h hk => exact .value (by rw [Value.at?_cons_of_getElem? hchild, h]) hk

theorem Link.target_ne_nil {v : Value} {p q : Address} {role : Role} (h : Link v p q role) :
    q ≠ [] := by
  cases h <;> simp

theorem length_keysAndValues (entries : List (Value × Value)) :
    (Value.keysAndValues entries).length = 2 * entries.length := by
  induction entries with
  | nil => rfl
  | cons entry rest ih => simp [ih]; omega

/-- A child hangs below its parent, or below the child before it if it is the value of a key. -/
theorem link_child {v : Value} {k : Nat} (hk : k < v.children.length) :
    (incoming v k ≠ .value ∧ Link v [] [k] (incoming v k)) ∨
    ∃ j, k = j + 1 ∧ incoming v k = .value ∧ Link v [j] [k] .value := by
  cases v with
  | list items =>
    have hplace : (Value.list items).at? [] = some (.sequence .list items) := rfl
    exact .inl ⟨nofun, .item hplace hk⟩
  | vector items =>
    have hplace : (Value.vector items).at? [] = some (.sequence .vector items) := rfl
    exact .inl ⟨nofun, .item hplace hk⟩
  | mapping entries =>
    have hplace : (Value.mapping entries).at? [] = some (.mapping entries) := rfl
    have hlength : k < 2 * entries.length := length_keysAndValues entries ▸ hk
    obtain ⟨j, rfl | rfl⟩ : ∃ j, k = 2 * j ∨ k = 2 * j + 1 := ⟨k / 2, by omega⟩
    · have hlink := Link.key hplace (show j < entries.length by omega)
      rw [incoming_key]
      exact .inl ⟨nofun, hlink⟩
    · exact .inr ⟨2 * j, rfl, incoming_value entries j, .value hplace (by omega)⟩
  | number => exact absurd hk (Nat.not_lt_zero k)
  | string => exact absurd hk (Nat.not_lt_zero k)
  | symbol => exact absurd hk (Nat.not_lt_zero k)

/-- The parent of the target says where the edge comes from and what it is called. -/
theorem Link.exists_parent {v : Value} {p q : Address} {role : Role} (h : Link v p q role) :
    ∃ place k parent, q = place ++ [k] ∧ v.at? place = some parent ∧ role = incoming parent k ∧
      p = if incoming parent k = .value then place ++ [k - 1] else place := by
  cases h with
  | @item _ shape _ k h =>
    refine ⟨_, k, _, rfl, h, ?_⟩
    cases shape <;> exact ⟨rfl, rfl⟩
  | @key _ entries k h =>
    refine ⟨_, 2 * k, _, rfl, h, (incoming_key entries k).symm, ?_⟩
    rw [incoming_key]
    rfl
  | @value place entries k h =>
    refine ⟨place, 2 * k + 1, _, rfl, h, (incoming_value entries k).symm, ?_⟩
    rw [incoming_value]
    rfl

/-- Only one edge leads to an address. -/
theorem Link.unique {v : Value} {p p' q : Address} {role role' : Role} (h : Link v p q role)
    (h' : Link v p' q role') : p = p' ∧ role = role' := by
  obtain ⟨place, k, parent, rfl, hparent, rfl, rfl⟩ := h.exists_parent
  obtain ⟨place', k', parent', hplace, hparent', rfl, rfl⟩ := h'.exists_parent
  obtain ⟨rfl, hk⟩ := List.append_inj' hplace rfl
  obtain rfl := (List.cons.inj hk).1
  obtain rfl := Option.some.inj (hparent.symm.trans hparent')
  exact ⟨rfl, rfl⟩

/-- Every edge inside the value stands for a link between the addresses that its ends number. -/
def EdgesLink (v : Value) : Prop := ∀ id source target role,
  .edge source target role ∈ statements v id →
    ∃ p q, (p, source) ∈ v.addresses.zipIdx id ∧ (q, target) ∈ v.addresses.zipIdx id ∧
      Link v p q role

theorem sourceOf_of_ne {role : Role} (hrole : role ≠ .value) (parent previous : Nat) :
    sourceOf role parent previous = parent := by
  cases role with
  | value => exact absurd rfl hrole
  | _ => rfl

/-- The edge that leads to a child. -/
theorem exists_link_of_child {v : Value} {numbered : List (Address × Nat)}
    {k parent previous next : Nat} (hk : k < v.children.length) (hparent : ([], parent) ∈ numbered)
    (hprevious : ∀ j, k = j + 1 → ([j], previous) ∈ numbered) (hnext : ([k], next) ∈ numbered) :
    ∃ p q, (p, sourceOf (incoming v k) parent previous) ∈ numbered ∧ (q, next) ∈ numbered ∧
      Link v p q (incoming v k) := by
  rcases link_child hk with ⟨hrole, hlink⟩ | ⟨j, hj, hrole, hlink⟩
  · refine ⟨[], [k], ?_, hnext, hlink⟩
    rw [sourceOf_of_ne hrole]
    exact hparent
  · rw [hrole]
    exact ⟨[j], [k], hprevious j hj, hnext, hlink⟩

/-- The statements for the children from one child on; `numbered` holds the numbers of all addresses
inside the value. -/
theorem exists_link_of_childStatements {v : Value} {numbered : List (Address × Nat)} {parent : Nat}
    (hparent : ([], parent) ∈ numbered) (before : List Value) {children : List Value}
    (hv : v.children = before ++ children) (hchildren : ∀ child ∈ children, EdgesLink child)
    {previous next : Nat} (hprevious : ∀ k, before.length = k + 1 → ([k], previous) ∈ numbered)
    (hnumbered : ∀ entry ∈ (spread before.length (children.map addresses)).zipIdx next,
      entry ∈ numbered)
    {source target : Nat} {role : Role}
    (h : .edge source target role ∈
      childStatements (incoming v) parent children before.length previous next) :
    ∃ p q, (p, source) ∈ numbered ∧ (q, target) ∈ numbered ∧ Link v p q role := by
  induction children generalizing before previous next with
  | nil => exact absurd h List.not_mem_nil
  | cons child more ih =>
    obtain ⟨hchild, hmore⟩ := List.forall_mem_cons.mp hchildren
    have hat : v.children[before.length]? = some child := by
      rw [hv, List.getElem?_append_right (Nat.le_refl _), Nat.sub_self]
      rfl
    -- The numbers are those inside the child, from `next` on, and then those of the other children.
    rw [List.map_cons, spread, List.zipIdx_append, List.length_map, Value.length_addresses]
      at hnumbered
    have hinside : ∀ p n, (p, n) ∈ child.addresses.zipIdx next →
        (before.length :: p, n) ∈ numbered := by
      intro p n hp
      apply hnumbered
      apply List.mem_append_left
      rw [← List.map_zipIdx]
      exact List.mem_map_of_mem hp
    have hnext : ([before.length], next) ∈ numbered := by
      apply hinside
      rw [Value.addresses_eq]
      exact List.mem_cons_self
    rw [childStatements] at h
    rcases List.mem_append.mp h with h | h
    · obtain ⟨p, q, hp, hq, hlink⟩ := hchild next source target role h
      exact ⟨_, _, hinside p source hp, hinside q target hq, hlink.below hat⟩
    rcases List.mem_cons.mp h with heq | h
    · obtain ⟨rfl, rfl, rfl⟩ := Statement.edge.inj heq
      have hlength : before.length < v.children.length := by
        rw [hv, List.length_append, List.length_cons]
        omega
      exact exists_link_of_child hlength hparent hprevious hnext
    · have hv' : v.children = (before ++ [child]) ++ more := by simp [hv]
      have hlength : (before ++ [child]).length = before.length + 1 := by simp
      refine ih (before ++ [child]) hv' hmore ?_ ?_ (hlength ▸ h)
      · intro k hk
        obtain rfl : before.length = k := by omega
        exact hnext
      · rw [hlength]
        exact fun entry hentry => hnumbered entry (List.mem_append_right _ hentry)

theorem edgesLink (v : Value) : EdgesLink v := by
  induction v using Value.induction_on_children with
  | step v ih =>
    intro id source target role h
    rw [statements_eq] at h
    have hrow := (List.mem_cons.mp h).resolve_left nofun
    rw [Value.addresses_eq, List.zipIdx_cons]
    refine exists_link_of_childStatements List.mem_cons_self [] (List.nil_append _).symm ih ?_ ?_
      hrow
    · exact fun k hk => absurd hk (Nat.succ_ne_zero k).symm
    · exact fun entry hentry => List.mem_cons_of_mem _ hentry

/-- The edges are the links of the value, each end under its number. -/
theorem edge_mem_ofValue_iff (v : Value) (source target : Nat) (role : Role) :
    .edge source target role ∈ ofValue v ↔
      ∃ p q, v.addresses[source]? = some p ∧ v.addresses[target]? = some q ∧ Link v p q role := by
  have hlinks : ∀ {source target role}, .edge source target role ∈ ofValue v →
      ∃ p q, v.addresses[source]? = some p ∧ v.addresses[target]? = some q ∧ Link v p q role := by
    intro source target role h
    obtain ⟨p, q, hp, hq, hlink⟩ := edgesLink v 0 source target role h
    exact ⟨p, q, List.mk_mem_zipIdx_iff_getElem?.mp hp, List.mk_mem_zipIdx_iff_getElem?.mp hq,
      hlink⟩
  refine ⟨hlinks, ?_⟩
  rintro ⟨p, q, hp, hq, hlink⟩
  -- Some edge leads to the target, and it can only be the one for this link.
  have htarget : target ∈ targets (ofValue v) := by
    have hlt : target < v.addresses.length := (List.getElem?_eq_some_iff.mp hq).1
    have hne : target ≠ 0 := by
      rintro rfl
      rw [Value.addresses_eq] at hq
      exact hlink.target_ne_nil (Option.some.inj hq).symm
    rw [Value.length_addresses, Value.size_eq] at hlt
    exact (targets_statements v 0).mem_iff.mpr (List.mem_range'_1.mpr (by omega))
  obtain ⟨source', role', hedge⟩ := mem_targets htarget
  obtain ⟨p', q', hp', hq', hlink'⟩ := hlinks hedge
  obtain rfl := Option.some.inj (hq.symm.trans hq')
  obtain ⟨rfl, rfl⟩ := hlink.unique hlink'
  have hlt : source < v.addresses.length := (List.getElem?_eq_some_iff.mp hp).1
  obtain rfl := (List.getElem?_inj hlt v.nodup_addresses).mp (hp.trans hp'.symm)
  exact hedge

/-- The text of a value's graph is the text of one row of statements.  Its nodes are the nodes of
the value with their figures and labels, numbered from zero in the order in which the value is
written.  One edge leads to each node but the first, from a smaller number and behind the
statements for both nodes; these edges are the links of the value, so that every node is reached
from node zero. -/
theorem ofValue_preorder (v : Value) :
    (∀ row, render row = dot v ↔ row = ofValue v) ∧
    (ofValue v).filterMap Statement.node? = v.nodes.zipIdx.map nodeFor ∧
    declared (ofValue v) = List.range v.nodes.length ∧
    ((ofValue v).filterMap Statement.edge?).length = v.nodes.length - 1 ∧
    (targets (ofValue v)).Perm (List.range' 1 (v.nodes.length - 1)) ∧
    (∀ before source target role after,
      ofValue v = before ++ .edge source target role :: after →
        source < target ∧ source ∈ declared before ∧ target ∈ declared before) ∧
    v.addresses.map v.at? = v.nodes.map some ∧
    (∀ source target role, .edge source target role ∈ ofValue v ↔
      ∃ p q, v.addresses[source]? = some p ∧ v.addresses[target]? = some q ∧ Link v p q role) ∧
    ∀ i < v.nodes.length,
      Relation.ReflTransGen (fun source target => ∃ role, .edge source target role ∈ ofValue v)
        0 i := by
  have htargets : (targets (ofValue v)).Perm (List.range' 1 (v.nodes.length - 1)) := by
    rw [Value.length_nodes, Value.size_eq, Nat.add_sub_cancel_left]
    exact targets_statements v 0
  have hedges : ((ofValue v).filterMap Statement.edge?).length = v.nodes.length - 1 := by
    have hlength := htargets.length_eq
    rwa [targets, List.length_map, List.length_range'] at hlength
  exact ⟨fun row => ⟨fun h => render_inj h, congrArg render⟩, nodes_statements v 0,
    declared_ofValue v, hedges, htargets, fun _ _ _ _ _ => ends_declared, v.map_at?_addresses,
    edge_mem_ofValue_iff v, reachable v⟩

def nestedMapping : Value :=
  .mapping [(.mapping [(.number 1, .symbol ['a'])], .list [.number 2])]

/-- The inner mapping is node one, and the list that is its value node four. -/
theorem ofValue_preorder_nestedMapping :
    ofValue nestedMapping = (ofValue nestedMapping).take 10 ++ [.edge 1 4 .value] ∧
      4 ∈ declared ((ofValue nestedMapping).take 10) ∧
      Link nestedMapping [0] [1] .value ∧
      Relation.ReflTransGen
        (fun source target => ∃ role, .edge source target role ∈ ofValue nestedMapping) 0 5 := by
  obtain ⟨-, -, -, -, -, hordered, -, hlinks, hreachable⟩ := ofValue_preorder nestedMapping
  have hsplit : ofValue nestedMapping
      = (ofValue nestedMapping).take 10 ++ [.edge 1 4 .value] := by decide
  have hedge : .edge 1 4 .value ∈ ofValue nestedMapping := by decide
  obtain ⟨p, q, hp, hq, hlink⟩ := (hlinks 1 4 .value).mp hedge
  obtain rfl : [0] = p := Option.some.inj hp
  obtain rfl : [1] = q := Option.some.inj hq
  exact ⟨hsplit, (hordered _ _ _ _ _ hsplit).2.2, hlink, hreachable 5 (by decide)⟩

end LispForms.Graph
