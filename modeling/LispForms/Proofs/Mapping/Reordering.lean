import LispForms.Proofs.Mapping.Filing

/-!
# Reordering — pairs in another order make the same mapping

What a mapping holds under a text is the last of the pairs that are written so.  It does not matter
where these pairs stand among the others, only in which order they come themselves.
-/

namespace LispForms

/-- The same items in another order, in which those with one key come as they did before. -/
structure Reordered {α : Type} (key : α → Text) (xs ys : List α) : Prop where
  perm : xs.Perm ys
  filter_eq : ∀ text, xs.filter (key · = text) = ys.filter (key · = text)

namespace Reordered

variable {α β : Type} {key : α → Text} {xs ys : List α}

theorem symm (h : Reordered key xs ys) : Reordered key ys xs :=
  ⟨h.perm.symm, fun text => (h.filter_eq text).symm⟩

theorem map (key : β → Text) (f : α → β) (h : Reordered (fun x => key (f x)) xs ys) :
    Reordered key (xs.map f) (ys.map f) where
  perm := h.perm.map f
  filter_eq text := by
    rw [List.filter_map, List.filter_map]
    exact congrArg (List.map f) (h.filter_eq text)

/-- Two neighbours with different keys can change places. -/
theorem swap {x y : α} (hne : key x ≠ key y) (rest : List α) :
    Reordered key (x :: y :: rest) (y :: x :: rest) where
  perm := .swap y x rest
  filter_eq text := by
    by_cases hx : key x = text
    · have hy : key y ≠ text := fun hy => hne (hx.trans hy.symm)
      simp [hx, hy]
    · simp [List.filter_cons, hx]

/-- The last item with a key is the same. -/
theorem find?_reverse (h : Reordered key xs ys) (text : Text) :
    xs.reverse.find? (key · = text) = ys.reverse.find? (key · = text) := by
  rw [← List.head?_filter, ← List.head?_filter, List.filter_reverse, List.filter_reverse,
    h.filter_eq]

end Reordered

namespace Mapping

variable {m m' : Mapping} {filed : Filing}

theorem Ascending.nodup {entries : List (Value × Value)} (h : Ascending entries) :
    entries.Nodup := by
  refine h.imp fun hlt => ?_
  rintro rfl
  exact List.lt_irrefl _ hlt

/-- A filing has one list of its pairs in the order of the texts. -/
theorem Refines.unique (h : m.Refines filed) (h' : m'.Refines filed) : m = m' := by
  have hmem : ∀ pair, pair ∈ m.entries ↔ pair ∈ m'.entries := fun pair => by
    have hpair := (h.filed_iff pair.1.display pair).symm.trans (h'.filed_iff pair.1.display pair)
    simpa using hpair
  have hperm : m.entries.Perm m'.entries :=
    (List.perm_ext_iff_of_nodup h.ascending.nodup h'.ascending.nodup).mpr hmem
  have hentries : m.entries = m'.entries :=
    hperm.eq_of_pairwise (fun a b _ _ hab hba => absurd hba (List.lt_asymm hab)) h.ascending
      h'.ascending
  exact congrArg Mapping.mk hentries

/-- Pairs make the same mapping in any order that keeps those which are written alike in theirs. -/
theorem ofList_eq_of_reordered {pairs pairs' : List (Value × Value)}
    (h : Reordered (fun pair => pair.1.display) pairs pairs') : ofList pairs = ofList pairs' := by
  have hfiling : Filing.ofList pairs = Filing.ofList pairs' := funext fun text => by
    rw [Filing.ofList_eq_find?, Filing.ofList_eq_find?, h.find?_reverse]
  exact (refines_ofList pairs).unique (hfiling ▸ refines_ofList pairs')

end Mapping

end LispForms
