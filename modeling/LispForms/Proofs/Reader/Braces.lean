import LispForms.Graph.Dot
import LispForms.Proofs.Mapping.Reordering
import LispForms.Proofs.Reader.Completion

/-!
# Braces — keys and values between a pair of brackets

Keys and values in a row are read as the mapping that they make, wherever the brackets stand and
whatever comes behind them.  As this mapping does not depend on the order of differently written
keys, neither does anything that is read around it.

Main statement: `readForm_braced`.
-/

namespace LispForms.Reader

open Cursor (readForm_eq_iff)

variable {levels budget position : Nat} {entries entries' : List (Piece × Piece)}

def braced (entries : List (Piece × Piece)) : List Token :=
  Bracket.curly.enclose (segments (alternating entries))

def gathered (entries : List (Piece × Piece)) : Mapping := .ofList (denoted entries)

/-- At every cursor in front of the segment that has the levels, the value is read. -/
def ReadAs (levels : Nat) (segment : List Token) (value : Value) : Prop :=
  ∀ (cursor : Cursor) (rest : List Token),
    cursor.tokens.drop cursor.position = segment ++ rest → levels ≤ maxDepth - cursor.depth →
      cursor.readForm = (.ok value, { cursor with position := cursor.position + segment.length })

/-- In tokens around either segment the same forms are read, from any position in front of it. -/
def Interchangeable (segment segment' : List Token) : Prop :=
  ∀ (front back : List Token) (position depth : Nat), position ≤ front.length →
    ∀ (value : Value) (next : Nat),
      (Cursor.mk (front ++ segment ++ back) position depth).readForm
          = (.ok value, ⟨front ++ segment ++ back, next, depth⟩) ↔
        (Cursor.mk (front ++ segment' ++ back) position depth).readForm
          = (.ok value, ⟨front ++ segment' ++ back, next, depth⟩)

/-- The keys and values in another order, where keys that are written alike come as before. -/
abbrev EntriesReordered (entries entries' : List (Piece × Piece)) : Prop :=
  Reordered (fun entry => entry.1.value.display) entries entries'

/-! ## 1. Another order -/

theorem Row.perm (h : Row levels .curly (alternating entries)) (hperm : entries.Perm entries') :
    Row levels .curly (alternating entries') := fun piece hpiece =>
  h piece ((hperm.flatMap_right _).mem_iff.mpr hpiece)

theorem length_segments_perm (hperm : entries.Perm entries') :
    (segments (alternating entries)).length = (segments (alternating entries')).length :=
  ((hperm.flatMap_right _).flatMap_right _).length_eq

theorem gathered_eq_of_reordered (h : EntriesReordered entries entries') :
    gathered entries = gathered entries' := by
  apply Mapping.ofList_eq_of_reordered
  exact h.map (fun pair : Value × Value => pair.1.display)
    fun entry : Piece × Piece => (entry.1.value, entry.2.value)

/-! ## 2. Reading on behind the bracket -/

theorem run_entries (hrow : Row levels .curly (alternating entries))
    (hsame : EntriesReordered entries entries') {frames : List OpenForm}
    (hlevels : frames.length < budget) (purpose : Purpose) (opening : Nat) (back : List Token) :
    Fails (run budget (.form (.mapping purpose opening .empty none :: frames)) position
        (segments (alternating entries) ++ Bracket.curly.closer :: back)) ∨
      run budget (.form (.mapping purpose opening .empty none :: frames)) position
          (segments (alternating entries) ++ Bracket.curly.closer :: back)
        = run budget (.form (.mapping purpose opening .empty none :: frames)) position
          (segments (alternating entries') ++ Bracket.curly.closer :: back) := by
  have hframe : (OpenForm.mapping purpose opening .empty none).closer?
      = some Bracket.curly.closer := rfl
  rcases fails_or_segments (readsUpTo _) hlevels position _ hframe (Nat.le_refl _) with
    hfails | ⟨pieces, rest, htokens, hpieces, hcloser⟩
  · exact .inl hfails
  · -- The forms that are read with the levels that there are can be no others than these.
    have hread : Row (budget - (frames.length + 1)) .curly pieces := fun piece hpiece =>
      ⟨hpieces piece hpiece, hcloser piece hpiece⟩
    obtain ⟨rfl, rfl⟩ := hrow.eq_of_append hread htokens
    have hread' := hread.perm hsame.perm
    have hbudget : frames.length + 1 + (budget - (frames.length + 1)) ≤ budget := by omega
    right
    rw [run_mapping purpose opening hbudget hread.reads hread.head?_ne
        (values_alternating entries),
      run_mapping purpose opening hbudget hread'.reads hread'.head?_ne
        (values_alternating entries'),
      length_segments_perm hsame.perm,
      show Mapping.ofList (denoted entries) = .ofList (denoted entries') from
        gathered_eq_of_reordered hsame]

/-- In another order the keys and values leave the reader where they left it before. -/
theorem run_braced (hrow : Row levels .curly (alternating entries))
    (hsame : EntriesReordered entries entries') (budget : Nat) (state : ReadState) (position : Nat)
    (back : List Token) :
    Fails (run budget state position (braced entries ++ back)) ∨
      run budget state position (braced entries ++ back)
        = run budget state position (braced entries' ++ back) := by
  rw [braced, braced, Bracket.enclose_append, Bracket.enclose_append]
  cases state with
  | form frames =>
    by_cases hlevels : frames.length < budget
    · have hopen : ∀ rest, run budget (.form frames) position (Bracket.curly.opener :: rest)
          = run budget (.form (.mapping .literal position .empty none :: frames)) (position + 1)
              rest :=
        fun rest => run_braces hlevels rest .literal
      rw [hopen, hopen]
      exact run_entries hrow hsame hlevels .literal position back
    · rw [run_announcer Bracket.curly.opener_mem_announcers, enter, if_pos (Nat.not_lt.mp hlevels)]
      exact .inl ⟨_, rfl⟩
  | brace frames =>
    by_cases hlevels : frames.length < budget
    · rw [run_cons, run_cons]
      exact run_entries hrow hsame hlevels .metadata _ back
    · exact .inl (fails_brace (Nat.le_succ_of_le (Nat.not_lt.mp hlevels)) _)

theorem run_around_braced (hrow : Row levels .curly (alternating entries))
    (hsame : EntriesReordered entries entries') {front back : List Token} {value : Value}
    {next : Nat}
    (h : run budget (.form []) position (front ++ (braced entries ++ back)) = ⟨.ok value, next⟩) :
    run budget (.form []) position (front ++ (braced entries' ++ back)) = ⟨.ok value, next⟩ := by
  cases hafter : stateAfter budget (.form []) position front with
  | none => rwa [run_append_of_none hafter] at h ⊢
  | some state =>
    rw [run_append_of_some hafter] at h ⊢
    rcases run_braced hrow hsame budget state (position + front.length) back with
      ⟨error, herror⟩ | hrun
    · rw [h] at herror
      cases herror
    · rwa [← hrun]

theorem interchangeable_braced (hrow : Row levels .curly (alternating entries))
    (hsame : EntriesReordered entries entries') :
    Interchangeable (braced entries) (braced entries') := by
  intro front back position depth hposition value next
  rw [readForm_eq_iff, readForm_eq_iff]
  simp only [List.append_assoc, List.drop_append_of_le_length hposition]
  exact ⟨run_around_braced hrow hsame,
    run_around_braced (hrow.perm hsame.perm) hsame.symm⟩

/-! ## 3. What is between the brackets -/

theorem Derives.readAs {segment : List Token} {value : Value} (h : Derives levels segment value) :
    ReadAs levels segment value := fun _ rest htokens hlevels =>
  readForm_eq_iff.mpr (run_eq_ok_iff.mpr ⟨segment, rest, htokens, rfl, h.mono hlevels⟩)

/-- An entry is the last key that is written so, with its value. -/
theorem mem_gathered_iff (entries : List (Piece × Piece)) (key value : Value) :
    (key, value) ∈ (gathered entries).entries ↔
      ∃ before entry after, entries = before ++ entry :: after ∧ entry.1.value = key ∧
        entry.2.value = value ∧ ∀ x ∈ after, x.1.value.display ≠ key.display := by
  rw [gathered, Mapping.mem_entries_ofList_iff]
  constructor
  · rintro ⟨first, last, hsplit, hlast⟩
    obtain ⟨before, more, rfl, rfl, hmore⟩ := List.map_eq_append_iff.mp hsplit
    obtain ⟨entry, after, rfl, hentry, rfl⟩ := List.map_eq_cons_iff.mp hmore
    obtain ⟨hkey, hvalue⟩ := Prod.mk.inj hentry
    exact ⟨before, entry, after, rfl, hkey, hvalue, fun x hx => hlast _ (List.mem_map_of_mem hx)⟩
  · rintro ⟨before, entry, after, rfl, rfl, rfl, hafter⟩
    exact ⟨denoted before, denoted after, List.map_append, List.forall_mem_map.mpr hafter⟩

theorem gathered_distinct (entries : List (Piece × Piece)) :
    (gathered entries).entries.Pairwise fun a b => a.1.display ≠ b.1.display := by
  refine (Mapping.ascending_ofList (denoted entries)).imp fun {a b} hlt heq => ?_
  rw [heq] at hlt
  exact List.lt_irrefl _ hlt

/-- Between a pair of brackets keys and values are read, wherever they stand, as the mapping that
holds under each written key the last pair with it; and so they are behind a metadata mark.  In
another order that keeps the pairs with one written key in theirs, they make the same mapping, with
the same written, inspected and drawn form, which finds the same entry as a key; and in all tokens
around them the same forms are read. -/
theorem readForm_braced (levels : Nat) (entries : List (Piece × Piece))
    (h : Row levels .curly (alternating entries)) :
    ReadAs (levels + 1) (braced entries) (gathered entries).toValue ∧
    (∀ segment value, Derives levels segment value →
      ReadAs (levels + 1) (metadataMark :: (braced entries ++ segment))
        (.call metadataName [value, (gathered entries).toValue])) ∧
    (∀ key value, (key, value) ∈ (gathered entries).entries ↔
      ∃ before entry after, entries = before ++ entry :: after ∧ entry.1.value = key ∧
        entry.2.value = value ∧ ∀ x ∈ after, x.1.value.display ≠ key.display) ∧
    ((gathered entries).entries.Pairwise fun a b => a.1.display ≠ b.1.display) ∧
    ∀ entries', EntriesReordered entries entries' →
      (gathered entries).toValue = (gathered entries').toValue ∧
      (gathered entries).toValue.display = (gathered entries').toValue.display ∧
      (gathered entries).toValue.inspect = (gathered entries').toValue.inspect ∧
      Graph.dot (gathered entries).toValue = Graph.dot (gathered entries').toValue ∧
      (∀ (m : Mapping) (value : Value),
        (m.insert (gathered entries).toValue value).get? (gathered entries').toValue
          = some value) ∧
      Interchangeable (braced entries) (braced entries') := by
  have hpairs := values_alternating entries
  refine ⟨(Derives.mapping h.derives h.head?_ne hpairs).readAs, fun segment value hform =>
    (Derives.description h.derives h.head?_ne hpairs hform).readAs, mem_gathered_iff entries,
    gathered_distinct entries, fun entries' hsame => ?_⟩
  have hgathered := gathered_eq_of_reordered hsame
  refine ⟨by rw [hgathered], by rw [hgathered], by rw [hgathered], by rw [hgathered],
    fun m value => ?_, interchangeable_braced h hsame⟩
  rw [hgathered, Mapping.get?_insert, if_pos rfl]

/-- `{a 1 b 2}` and `{b 2 a 1}` stand for each other, and so do the values, by themselves and behind
a metadata mark. -/
theorem readForm_braced_two_letters :
    ∃ entries entries' : List (Piece × Piece),
      braced entries = [['\x7b'], ['a'], ['1'], ['b'], ['2'], ['\x7d']] ∧
      braced entries' = [['\x7b'], ['b'], ['2'], ['a'], ['1'], ['\x7d']] ∧
      Row 1 .curly (alternating entries) ∧ EntriesReordered entries entries' ∧
      ReadAs 2 (braced entries) (gathered entries).toValue ∧
      ReadAs 2 (metadataMark :: (braced entries ++ [['a']]))
        (.call metadataName [.symbol ['a'], (gathered entries).toValue]) ∧
      (gathered entries).toValue = (gathered entries').toValue ∧
      Interchangeable (braced entries) (braced entries') := by
  let a : Piece := ⟨[['a']], .symbol ['a']⟩
  let b : Piece := ⟨[['b']], .symbol ['b']⟩
  let one : Piece := ⟨[['1']], .number 1⟩
  let two : Piece := ⟨[['2']], .number 2⟩
  have ha : Derives 1 a.segment a.value := derives_letter 0
  have hb : Derives 1 b.segment b.value := .symbol (by decide) (by decide) (by decide)
  have hone : Derives 1 one.segment one.value := .number (by decide) (by decide)
  have htwo : Derives 1 two.segment two.value := .number (by decide) (by decide)
  have hrow : Row 1 .curly (alternating [(a, one), (b, two)]) := by
    intro piece hpiece
    simp only [alternating, List.flatMap_cons, List.flatMap_nil, List.append_nil, List.cons_append,
      List.nil_append, List.mem_cons, List.not_mem_nil, or_false] at hpiece
    rcases hpiece with rfl | rfl | rfl | rfl
    · exact ⟨ha, by decide⟩
    · exact ⟨hone, by decide⟩
    · exact ⟨hb, by decide⟩
    · exact ⟨htwo, by decide⟩
  have hsame : EntriesReordered [(a, one), (b, two)] [(b, two), (a, one)] := .swap (by decide) []
  obtain ⟨hread, hmetadata, -, -, hreordered⟩ := readForm_braced 1 _ hrow
  obtain ⟨hvalue, -, -, -, -, hinterchangeable⟩ := hreordered _ hsame
  exact ⟨_, _, rfl, rfl, hrow, hsame, hread, hmetadata _ _ ha, hvalue, hinterchangeable⟩

end LispForms.Reader
