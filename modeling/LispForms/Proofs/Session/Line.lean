import LispForms.Proofs.Text.Utf8
import LispForms.Session.Line

/-!
# Line — what the lines of an input are, as bytes and as text

An input is lines that each end with a line feed, and then a line that has none.  Cutting bytes into
lines and decoding each is the same as cutting the decoded text (`decodeLines_append`).
-/

namespace LispForms.Session

open Text (decode? encode)

/-- Induction along the lines of bytes or of a text: what holds of a line without an end holds of
all, if a line with its end can be put in front. -/
@[elab_as_elim]
theorem line_induction {α : Type} (mark : α) {motive : List α → Prop}
    (last : ∀ body, mark ∉ body → motive body)
    (line : ∀ body rest, mark ∉ body → motive rest → motive (body ++ mark :: rest))
    (items : List α) : motive items := by
  by_cases hmark : mark ∈ items
  · rcases List.eq_append_cons_of_mem hmark with ⟨body, rest, rfl, hbody⟩
    exact line body rest hbody (line_induction mark last line rest)
  · exact last items hmark
termination_by items.length
decreasing_by
  subst items
  rw [List.length_append, List.length_cons]
  omega

/-! ## 1. Bytes -/

theorem lines_append {body : Bytes} (hbody : 10 ∉ body) (rest : Bytes) :
    lines (body ++ 10 :: rest) = (body ++ [10]) :: lines rest := by
  induction body with
  | nil => rfl
  | cons byte body ih =>
    obtain ⟨hbyte, hmore⟩ : 10 ≠ byte ∧ 10 ∉ body := by simpa using hbody
    rw [List.cons_append, lines, if_neg hbyte.symm, ih hmore]
    rfl

theorem lines_of_notMem {body : Bytes} (hbody : 10 ∉ body) (hne : body ≠ []) :
    lines body = [body] := by
  induction body with
  | nil => exact absurd rfl hne
  | cons byte body ih =>
    obtain ⟨hbyte, hmore⟩ : 10 ≠ byte ∧ 10 ∉ body := by simpa using hbody
    rw [lines, if_neg hbyte.symm]
    cases body with
    | nil => rfl
    | cons => rw [ih hmore (List.cons_ne_nil _ _)]

/-- The first lines of an input, put together again, have just these lines. -/
theorem lines_flatten {first : List Bytes} {bytes : Bytes} (h : first <+: lines bytes) :
    lines first.flatten = first := by
  induction bytes using line_induction (10 : UInt8) generalizing first with
  | last body hbody =>
    cases body with
    | nil => rw [List.prefix_nil.mp h]; rfl
    | cons byte body =>
      rw [lines_of_notMem hbody (List.cons_ne_nil _ _)] at h
      rcases List.prefix_cons_iff.mp h with rfl | ⟨more, rfl, hmore⟩
      · rfl
      · rw [List.prefix_nil.mp hmore]
        rw [List.flatten_singleton]
        exact lines_of_notMem hbody (List.cons_ne_nil _ _)
  | line body rest hbody ih =>
    rw [lines_append hbody] at h
    rcases List.prefix_cons_iff.mp h with rfl | ⟨more, rfl, hmore⟩
    · rfl
    · rw [List.flatten_cons, List.append_assoc, List.singleton_append, lines_append hbody, ih hmore]

/-- An input that is ended by a line feed can be cut into lines by itself. -/
theorem lines_append_of_ended {bytes : Bytes} (h : bytes = [] ∨ bytes.getLast? = some 10)
    (rest : Bytes) : lines (bytes ++ rest) = lines bytes ++ lines rest := by
  induction bytes using line_induction (10 : UInt8) with
  | last body hbody =>
    rcases h with rfl | h
    · rfl
    · exact absurd (List.mem_of_getLast? h) hbody
  | line body more hbody ih =>
    have hmore : more = [] ∨ more.getLast? = some 10 := by
      cases more with
      | nil => exact .inl rfl
      | cons byte more =>
        rcases h with h | h
        · simp at h
        · exact .inr (by simpa [List.getLast?_append, List.getLast?_cons] using h)
    rw [List.append_assoc, List.cons_append, lines_append hbody, lines_append hbody, ih hmore,
      List.cons_append]

/-- The lines make up the input; none is empty or has a line feed but at its end, and there all have
one but the last. -/
structure CutAtLineFeeds (input : Bytes) (cut : List Bytes) : Prop where
  flatten : cut.flatten = input
  nonempty : [] ∉ cut
  inner : ∀ line ∈ cut, 10 ∉ line.dropLast
  ended : ∀ line ∈ cut.dropLast, line.getLast? = some 10

namespace CutAtLineFeeds

theorem nil : CutAtLineFeeds [] [] :=
  ⟨rfl, List.not_mem_nil, List.forall_mem_nil _, List.forall_mem_nil _⟩

theorem last {body : Bytes} (hbody : 10 ∉ body) (hne : body ≠ []) : CutAtLineFeeds body [body] where
  flatten := List.flatten_singleton
  nonempty := fun h => hne (List.mem_singleton.mp h).symm
  inner := List.forall_mem_singleton.mpr fun h => hbody (List.dropLast_subset _ h)
  ended := List.forall_mem_nil _

theorem line {body rest : Bytes} {cut : List Bytes} (hbody : 10 ∉ body)
    (h : CutAtLineFeeds rest cut) :
    CutAtLineFeeds (body ++ 10 :: rest) ((body ++ [10]) :: cut) where
  flatten := by rw [List.flatten_cons, h.flatten, List.append_assoc, List.singleton_append]
  nonempty := List.not_mem_cons_of_ne_of_not_mem (by simp) h.nonempty
  inner := List.forall_mem_cons.mpr ⟨by rwa [List.dropLast_concat], h.inner⟩
  ended := by
    cases cut with
    | nil => exact List.forall_mem_nil _
    | cons next more => exact List.forall_mem_cons.mpr ⟨List.getLast?_concat, h.ended⟩

end CutAtLineFeeds

theorem cutAtLineFeeds_lines (input : Bytes) : CutAtLineFeeds input (lines input) := by
  induction input using line_induction (10 : UInt8) with
  | last body hbody =>
    cases body with
    | nil => exact .nil
    | cons byte body =>
      rw [lines_of_notMem hbody (List.cons_ne_nil _ _)]
      exact .last hbody (List.cons_ne_nil _ _)
  | line body rest hbody ih =>
    rw [lines_append hbody]
    exact ih.line hbody

theorem lines_of_notMem_dropLast {line : Bytes} (hne : line ≠ []) (h : 10 ∉ line.dropLast) :
    lines line = [line] := by
  rcases List.eq_nil_or_concat line with rfl | ⟨body, byte, rfl⟩
  · exact absurd rfl hne
  · rw [List.concat_eq_append] at h ⊢
    rw [List.dropLast_concat] at h
    by_cases hbyte : byte = 10
    · rw [hbyte, lines_append h]
      rfl
    · exact lines_of_notMem (by simp [h, Ne.symm hbyte]) (by simp)

/-- There is one way to cut an input at its line feeds. -/
theorem cutAtLineFeeds_iff {input : Bytes} {cut : List Bytes} :
    CutAtLineFeeds input cut ↔ cut = lines input := by
  constructor
  · rintro ⟨rfl, hnonempty, hinner, hended⟩
    induction cut with
    | nil => rfl
    | cons line more ih =>
      obtain ⟨hline, hmore⟩ := List.forall_mem_cons.mp hinner
      obtain ⟨hne, hmoreNonempty⟩ := List.ne_and_not_mem_of_not_mem_cons hnonempty
      have hlines : lines line = [line] := lines_of_notMem_dropLast hne.symm hline
      -- Only a line that another one follows has to end with a line feed.
      cases more with
      | nil => rw [List.flatten_singleton, hlines]
      | cons next more =>
        obtain ⟨hend, hmoreEnded⟩ := List.forall_mem_cons.mp hended
        rw [List.flatten_cons, lines_append_of_ended (.inr hend), hlines,
          ← ih hmoreNonempty hmore hmoreEnded]
        rfl
  · rintro rfl
    exact cutAtLineFeeds_lines input

/-! ## 2. Texts -/

theorem lines_encode_append {body : Text} (hbody : '\n' ∉ body) (rest : Text) :
    lines (encode (body ++ '\n' :: rest)) = encode (body ++ ['\n']) :: lines (encode rest) := by
  have hbytes : 10 ∉ encode body := fun h => hbody (Text.lineFeed_mem_encode_iff.mp h)
  rw [Text.encode_append, Text.encode_lineFeed, lines_append hbytes, Text.encode_append]
  rfl

theorem lines_encode_of_notMem {body : Text} (hbody : '\n' ∉ body) (hne : body ≠ []) :
    lines (encode body) = [encode body] := by
  have hbytes : 10 ∉ encode body := fun h => hbody (Text.lineFeed_mem_encode_iff.mp h)
  exact lines_of_notMem hbytes fun h => hne (Text.encode_eq_nil_iff.mp h)

theorem decodeLines_append {body : Text} (hbody : '\n' ∉ body) (rest : Text) :
    decodeLines (lines (encode (body ++ '\n' :: rest)))
      = ((body ++ ['\n']) :: (decodeLines (lines (encode rest))).1,
          (decodeLines (lines (encode rest))).2) := by
  rw [lines_encode_append hbody, decodeLines, Text.decode?_encode]

theorem decodeLines_of_notMem {body : Text} (hbody : '\n' ∉ body) (hne : body ≠ []) :
    decodeLines (lines (encode body)) = ([body], true) := by
  rw [lines_encode_of_notMem hbody hne, decodeLines, Text.decode?_encode]
  rfl

/-- Every line of a text decodes. -/
theorem decodeLines_encode (text : Text) : (decodeLines (lines (encode text))).2 = true := by
  induction text using line_induction '\n' with
  | last body hbody =>
    cases body with
    | nil => rfl
    | cons => rw [decodeLines_of_notMem hbody (List.cons_ne_nil _ _)]
  | line body rest hbody ih => rw [decodeLines_append hbody, ih]

/-! ## 3. Ends of lines -/

theorem dropTerminator_lineFeed {line : Text} (h : line.getLast? ≠ some '\r') :
    dropTerminator (line ++ ['\n']) = line := by
  have hreverse : (line ++ ['\n']).reverse = '\n' :: line.reverse := by simp
  rw [dropTerminator, hreverse]
  split
  · next rest heq =>
    have hreturn : line.reverse = '\r' :: rest := (List.cons.inj heq).2
    refine absurd ?_ h
    rw [List.getLast?_eq_head?_reverse, hreturn]
    rfl
  · next rest heq => rw [← (List.cons.inj heq).2, List.reverse_reverse]
  · next hother => exact absurd rfl (hother line.reverse)

theorem dropTerminator_of_notMem {line : Text} (h : '\n' ∉ line) : dropTerminator line = line := by
  rw [← List.mem_reverse] at h
  rw [dropTerminator]
  split
  · next rest heq => simp [heq] at h
  · next rest heq => simp [heq] at h
  · rfl

end LispForms.Session
