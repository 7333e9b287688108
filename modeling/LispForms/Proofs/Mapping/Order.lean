import LispForms.Mapping

/-!
# Order — the entries of a mapping stand in the order of their written keys

Insertion keeps the entries strictly ascending, adds nothing but the pair it is given, and is seen
by look-up under exactly the keys with that written form.  Pairs that are in order already become
a mapping as they are.
-/

namespace LispForms.Mapping

/-- Strictly ascending in the written forms of the keys, so that no two keys are written alike. -/
def Ascending (entries : List (Value × Value)) : Prop :=
  entries.Pairwise fun a b => a.1.display < b.1.display

theorem text_lt_of_not_lt {a b : Text} (hne : a ≠ b) (h : ¬ a < b) : b < a :=
  Decidable.byContradiction fun hba =>
    hne (List.le_antisymm (List.not_lt.mp hba) (List.not_lt.mp h))

theorem mem_of_mem_place {text : Text} {entry x : Value × Value} {entries : List (Value × Value)}
    (h : x ∈ (place text entry entries).2) : x = entry ∨ x ∈ entries := by
  induction entries with
  | nil => simpa [place] using h
  | cons head rest ih =>
    rw [place] at h
    split at h
    · rcases List.mem_cons.mp h with rfl | h
      · exact .inl rfl
      · exact .inr (List.mem_cons_of_mem _ h)
    · split at h
      · exact List.mem_cons.mp h
      · rcases List.mem_cons.mp h with rfl | h
        · exact .inr List.mem_cons_self
        · exact (ih h).imp_right (List.mem_cons_of_mem _)

theorem ascending_place {entry : Value × Value} {entries : List (Value × Value)}
    (h : Ascending entries) : Ascending (place entry.1.display entry entries).2 := by
  induction entries with
  | nil => exact List.pairwise_singleton _ _
  | cons head rest ih =>
    obtain ⟨hhead, hrest⟩ := List.pairwise_cons.mp h
    rw [place]
    split
    · next heq =>
      refine List.pairwise_cons.mpr ⟨fun x hx => ?_, hrest⟩
      rw [heq]
      exact hhead x hx
    · next hne =>
      split
      · next hlt =>
        refine List.pairwise_cons.mpr ⟨fun x hx => ?_, h⟩
        rcases List.mem_cons.mp hx with rfl | hx
        · exact hlt
        · exact List.lt_trans hlt (hhead x hx)
      · next hnlt =>
        refine List.pairwise_cons.mpr ⟨fun x hx => ?_, ih hrest⟩
        rcases mem_of_mem_place hx with rfl | hx
        · exact text_lt_of_not_lt hne hnlt
        · exact hhead x hx

theorem place_of_forall_lt {entry : Value × Value} {entries : List (Value × Value)}
    (h : ∀ x ∈ entries, x.1.display < entry.1.display) :
    (place entry.1.display entry entries).2 = entries ++ [entry] := by
  induction entries with
  | nil => rfl
  | cons head rest ih =>
    obtain ⟨hhead, hrest⟩ := List.forall_mem_cons.mp h
    have hne : entry.1.display ≠ head.1.display := fun heq => by
      rw [heq] at hhead
      exact List.lt_irrefl _ hhead
    have hnlt : ¬ entry.1.display < head.1.display := fun hlt =>
      List.lt_irrefl _ (List.lt_trans hlt hhead)
    simp [place, hne, hnlt, ih hrest]

/-! ## 1. Mappings from pairs -/

theorem ofList_induction {motive : Mapping → Prop} {pairs : List (Value × Value)}
    (hempty : motive empty)
    (hinsert : ∀ m, ∀ pair ∈ pairs, motive m → motive (m.insert pair.1 pair.2)) :
    motive (ofList pairs) := by
  suffices h : ∀ m, motive m →
      motive (pairs.foldl (fun m pair => m.insert pair.1 pair.2) m) from h empty hempty
  intro m hm
  induction pairs generalizing m with
  | nil => exact hm
  | cons pair rest ih =>
    obtain ⟨hpair, hrest⟩ : (∀ m, motive m → motive (m.insert pair.1 pair.2)) ∧
        ∀ m, ∀ pair ∈ rest, motive m → motive (m.insert pair.1 pair.2) :=
      ⟨fun m => hinsert m pair List.mem_cons_self,
        fun m x hx => hinsert m x (List.mem_cons_of_mem _ hx)⟩
    exact ih hrest _ (hpair m hm)

theorem ascending_ofList (pairs : List (Value × Value)) : Ascending (ofList pairs).entries :=
  ofList_induction (motive := fun m => Ascending m.entries) List.Pairwise.nil
    fun _ _ _ hm => ascending_place hm

theorem mem_of_mem_ofList {pairs : List (Value × Value)} {x : Value × Value}
    (h : x ∈ (ofList pairs).entries) : x ∈ pairs := by
  refine ofList_induction (motive := fun m => ∀ x ∈ m.entries, x ∈ pairs) ?_ ?_ x h
  · exact List.forall_mem_nil _
  · intro m pair hpair hm x hx
    rcases mem_of_mem_place hx with rfl | hx
    · exact hpair
    · exact hm x hx

/-- Pairs in order are the entries of their mapping. -/
theorem entries_ofList {pairs : List (Value × Value)} (h : Ascending pairs) :
    (ofList pairs).entries = pairs := by
  -- The entries so far come before all pairs that are left, so each pair goes to the end.
  suffices hfold : ∀ done, Ascending (done ++ pairs) →
      (pairs.foldl (fun (m : Mapping) pair => m.insert pair.1 pair.2) ⟨done⟩).entries
        = done ++ pairs from
    hfold [] h
  intro done hdone
  induction pairs generalizing done with
  | nil => simp
  | cons pair rest ih =>
    have hlast : ∀ x ∈ done, x.1.display < pair.1.display := fun x hx =>
      (List.pairwise_append.mp hdone).2.2 x hx pair List.mem_cons_self
    have hstep : (⟨done⟩ : Mapping).insert pair.1 pair.2 = ⟨done ++ [pair]⟩ :=
      congrArg Mapping.mk (place_of_forall_lt hlast)
    rw [List.foldl_cons, hstep]
    simpa using ih (List.pairwise_cons.mp h).2 (done ++ [pair]) (by simpa using hdone)

/-! ## 2. Look-up -/

/-- After an insertion the value is found under every key that is written like the one given, and
nothing has changed under the others. -/
theorem get?_insert (m : Mapping) (key value key' : Value) :
    (m.insert key value).get? key' =
      if key'.display = key.display then some value else m.get? key' := by
  obtain ⟨entries⟩ := m
  simp only [insert, exchange, get?]
  induction entries with
  | nil => by_cases h : key'.display = key.display <;> simp [place, h, eq_comm]
  | cons head rest ih =>
    rw [place]
    split
    · -- The new entry stands in the place of the head, under the same written key.
      next heq =>
      by_cases h : key'.display = key.display
      · simp [h]
      · have hkey : key.display ≠ key'.display := Ne.symm h
        have hhead : head.1.display ≠ key'.display := heq ▸ hkey
        simp [h, hkey, hhead]
    · split
      · by_cases h : key'.display = key.display
        · simp [h]
        · simp [h, Ne.symm h]
      · -- The head stays where it is, and has another key than the new entry.
        next hne _ =>
        by_cases hhead : head.1.display = key'.display
        · have h : key'.display ≠ key.display := fun h => hne (h.symm.trans hhead.symm)
          simp [h, hhead]
        · simpa [hhead] using ih

end LispForms.Mapping
