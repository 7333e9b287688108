import LispForms.Proofs.Session.Entries
import LispForms.Session.Command

/-!
# Rejection — which inputs are refused for their bytes

The loop decodes each line by itself, and the drawing decodes the input as a whole.  As no character
has the byte of a line feed among others, a cut into lines never goes through a character: the lines
are all UTF-8 exactly if the input is, and their texts make up its text.

Main statement: `loop_rejects_iff_drawing_rejects`.
-/

namespace LispForms.Session

open Text (decode?)

/-! ## 1. Line by line -/

/-- The texts of the lines, where all of them are UTF-8, are the text of the input. -/
theorem flatten_decoded_lines (input : Bytes) :
    ((lines input).mapM decode?).map List.flatten = decode? input := by
  induction input using line_induction (10 : UInt8) with
  | last body hbody =>
    cases body with
    | nil => rfl
    | cons byte body =>
      rw [lines_of_notMem hbody (List.cons_ne_nil _ _), List.mapM_cons, List.mapM_nil]
      cases decode? (byte :: body) with
      | none => rfl
      | some text => simp
  | line body rest hbody ih =>
    have hnil : decode? [] = some [] := rfl
    rw [lines_append hbody, List.mapM_cons, Text.decode?_append_lineFeed,
      Text.decode?_append_lineFeed, ← ih, hnil]
    cases decode? body with
    | none => rfl
    | some first =>
      cases (lines rest).mapM decode? with
      | none => rfl
      | some texts => simp

theorem fault_ofLines_eq (ls : List Bytes) :
    (Transcript.ofLines ls).fault = if (ls.mapM decode?).isSome then none else some .notUtf8 := by
  induction ls with
  | nil => rfl
  | cons line ls ih =>
    rw [Transcript.ofLines, List.mapM_cons]
    cases decode? line with
    | none => rfl
    | some text =>
      cases hlater : ls.mapM decode? with
      | none => simp [ih, hlater]
      | some texts => simp [ih, hlater]

theorem fault_loop_eq (input : Bytes) :
    (loop .unlimited input).fault
      = if (decode? input).isSome then none else some .notUtf8 := by
  rw [loop_unlimited, fault_ofLines_eq, ← flatten_decoded_lines, Option.isSome_map]

/-! ## 2. As a whole -/

theorem Report.failure_inj {reason reason' : Text} (h : Report.failure reason = .failure reason') :
    reason = reason' := by
  have hstderr := (Report.mk.inj h).2.2
  rw [List.append_assoc, List.append_assoc] at hstderr
  exact List.append_cancel_right (List.append_cancel_left hstderr)

/-- A form that does not read is told from bytes that are no text. -/
theorem Fault.inspect_unreadable_ne (error : ReadError) :
    (Fault.unreadable error).inspect ≠ Fault.notUtf8.inspect := by
  intro h
  exact absurd (List.cons.inj h).1 (by decide)

theorem drawing_eq_notUtf8_iff (input : Bytes) :
    drawing input = .failure Fault.notUtf8.inspect ↔ decode? input = none := by
  rw [drawing]
  cases decode? input with
  | none => simp
  | some text =>
    simp only [reduceCtorEq, iff_false]
    cases read text with
    | ok value => exact fun h => absurd (Report.mk.inj h).1 (by decide)
    | error error => exact fun h => Fault.inspect_unreadable_ne error (Report.failure_inj h)

/-- The bytes of an input stop the loop, which decodes them line by line, exactly if they stop the
drawing, which decodes them all at once: if the input is not UTF-8.  If it is, the texts of its
lines make up its text.  The lines are what there is between line feeds, and there is no other way
to cut the input at these. -/
theorem loop_rejects_iff_drawing_rejects (input : Bytes) :
    ((loop .unlimited input).fault = some .notUtf8 ↔ decode? input = none) ∧
    (drawing input = .failure Fault.notUtf8.inspect ↔ decode? input = none) ∧
    ((lines input).mapM decode?).map List.flatten = decode? input ∧
    ∀ cut, CutAtLineFeeds input cut ↔ cut = lines input := by
  refine ⟨?_, drawing_eq_notUtf8_iff input, flatten_decoded_lines input,
    fun _ => cutAtLineFeeds_iff⟩
  rw [fault_loop_eq]
  cases decode? input with
  | none => simp
  | some text => simp

/-- A character that is spread over two lines is on neither of them. -/
example : (loop .unlimited [0x61, 10, 0xE2, 10, 0x82, 0xAC]).fault = some .notUtf8 := by rfl

end LispForms.Session
