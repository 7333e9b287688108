import LispForms.Proofs.Reader.Acceptance

/-!
# Row — whole forms one after another

Inside a bracket forms stand in a row, and none of them starts with the token that closes it; in a
mapping they are keys and values in turn.  Up to the closing bracket there is one way only to see
tokens as such a row.
-/

namespace LispForms.Reader

/-- Whole forms in a row inside a bracket, none of which starts with the token that closes it. -/
def Row (levels : Nat) (bracket : Bracket) (pieces : List Piece) : Prop :=
  ∀ piece ∈ pieces,
    Derives levels piece.segment piece.value ∧ piece.segment.head? ≠ some bracket.closer

def alternating (entries : List (Piece × Piece)) : List Piece :=
  entries.flatMap fun entry => [entry.1, entry.2]

def denoted (entries : List (Piece × Piece)) : List (Value × Value) :=
  entries.map fun entry => (entry.1.value, entry.2.value)

section

variable {levels : Nat} {bracket : Bracket} {pieces : List Piece}

theorem Row.derives (h : Row levels bracket pieces) :
    ∀ piece ∈ pieces, Derives levels piece.segment piece.value :=
  fun piece hpiece => (h piece hpiece).1

theorem Row.head?_ne (h : Row levels bracket pieces) :
    ∀ piece ∈ pieces, piece.segment.head? ≠ some bracket.closer :=
  fun piece hpiece => (h piece hpiece).2

theorem Row.reads (h : Row levels bracket pieces) :
    ∀ piece ∈ pieces, Reads levels piece.segment piece.value :=
  fun piece hpiece => (h.derives piece hpiece).reads

theorem row_nil (levels : Nat) (bracket : Bracket) : Row levels bracket [] :=
  List.forall_mem_nil _

theorem Row.concat (h : Row levels bracket pieces) {segment : List Token} {value : Value}
    (hform : Derives levels segment value) (hhead : segment.head? ≠ some bracket.closer) :
    Row levels bracket (pieces ++ [⟨segment, value⟩]) :=
  List.forall_mem_append.mpr ⟨h, List.forall_mem_singleton.mpr ⟨hform, hhead⟩⟩

end

theorem segments_concat (pieces : List Piece) (segment : List Token) (value : Value) :
    segments (pieces ++ [⟨segment, value⟩]) = segments pieces ++ segment := by
  simp [segments]

theorem values_concat (pieces : List Piece) (segment : List Token) (value : Value) :
    values (pieces ++ [⟨segment, value⟩]) = values pieces ++ [value] := by
  simp [values]

theorem values_alternating (entries : List (Piece × Piece)) :
    values (alternating entries) = Value.keysAndValues (denoted entries) := by
  induction entries with
  | nil => rfl
  | cons entry rest ih =>
    show entry.1.value :: entry.2.value :: values (alternating rest) = _
    rw [ih]
    rfl

/-- Forms in a row are keys and values in turn, or there is a key left over. -/
theorem exists_alternating : ∀ pieces : List Piece,
    ∃ entries, pieces = alternating entries ∨ ∃ key, pieces = alternating entries ++ [key]
  | [] => ⟨[], .inl rfl⟩
  | [key] => ⟨[], .inr ⟨key, rfl⟩⟩
  | key :: value :: rest => by
    rcases exists_alternating rest with ⟨entries, hrest | ⟨last, hrest⟩⟩
    · exact ⟨(key, value) :: entries, .inl (by rw [hrest]; rfl)⟩
    · exact ⟨(key, value) :: entries, .inr ⟨last, by rw [hrest]; rfl⟩⟩

theorem length_alternating (entries : List (Piece × Piece)) :
    (alternating entries).length = 2 * entries.length := by
  induction entries with
  | nil => rfl
  | cons entry rest ih =>
    show (alternating rest).length + 2 = _
    rw [ih, List.length_cons]
    omega

/-! ## 1. One way to see a row -/

/-- Two rows that the same bracket closes are one if their tokens are the same. -/
theorem Row.eq_of_append {levels levels' : Nat} {bracket : Bracket} {pieces pieces' : List Piece}
    {rest rest' : List Token} (h : Row levels bracket pieces) (h' : Row levels' bracket pieces')
    (heq : segments pieces ++ bracket.closer :: rest
      = segments pieces' ++ bracket.closer :: rest') :
    pieces = pieces' ∧ rest = rest' := by
  induction pieces generalizing pieces' with
  | nil =>
    cases pieces' with
    | nil => exact ⟨rfl, (List.cons.inj heq).2⟩
    | cons piece' more' =>
      -- The other row would begin with the bracket that closes it.
      obtain ⟨hform, hhead⟩ := h' piece' List.mem_cons_self
      apply absurd _ hhead
      rw [← hform.head?_append (segments more' ++ bracket.closer :: rest'), ← List.append_assoc]
      exact (congrArg List.head? heq).symm
  | cons piece more ih =>
    obtain ⟨hpiece, hmore⟩ := List.forall_mem_cons.mp h
    cases pieces' with
    | nil =>
      apply absurd _ hpiece.2
      rw [← hpiece.1.head?_append (segments more ++ bracket.closer :: rest), ← List.append_assoc]
      exact congrArg List.head? heq
    | cons piece' more' =>
      obtain ⟨hpiece', hmore'⟩ := List.forall_mem_cons.mp h'
      have htokens : piece.segment ++ (segments more ++ bracket.closer :: rest)
          = piece'.segment ++ (segments more' ++ bracket.closer :: rest') := by
        rw [← List.append_assoc, ← List.append_assoc]
        exact heq
      obtain ⟨hsegment, hvalue⟩ := hpiece.1.unique hpiece'.1 htokens
      rw [hsegment] at htokens
      obtain ⟨hrow, hrest⟩ := ih hmore hmore' (List.append_cancel_left htokens)
      have hfirst : piece = piece' := by
        rcases piece with ⟨segment, value⟩
        rcases piece' with ⟨segment', value'⟩
        exact congr (congrArg Piece.mk hsegment) hvalue
      exact ⟨by rw [hfirst, hrow], hrest⟩

end LispForms.Reader
