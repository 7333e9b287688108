import LispForms.Proofs.Session.Line
import LispForms.Proofs.Session.Loop
import LispForms.Proofs.Session.OneLine

/-!
# Entries — the loop treats each line by itself

Where there is room for everything, the loop writes one line for each line that is not blank, up to
the first that is not UTF-8, and what it writes depends on that line alone.  So an input that is
ended by a line feed can be read by itself, and the rest after it.
-/

namespace LispForms.Session

open Text (decode? encode)

/-- The lines that something is written for: those that are not blank, up to the first that is not
UTF-8. -/
def entries (input : Bytes) : List Text :=
  (decodeLines (lines input)).1.filter fun line => !isBlank line

def shown (line : Text) : Text :=
  match read line with
  | .ok value => value.display ++ ['\n']
  | .error _ => []

def reported (line : Text) : Text :=
  match read line with
  | .ok _ => []
  | .error error => error.message ++ ['\n']

/-! ## 1. The transcript -/

theorem ofLines_eq (ls : List Bytes) :
    Transcript.ofLines ls
      = ⟨(decodeLines ls).1.flatMap fun line => (Record.ofLine? line).toList,
          if (decodeLines ls).2 then none else some .notUtf8⟩ := by
  induction ls with
  | nil => rfl
  | cons line ls ih =>
    rw [Transcript.ofLines, decodeLines]
    cases decode? line with
    | none => rfl
    | some text => rw [ih]; rfl

theorem fault_ofLines (ls : List Bytes) :
    ((Transcript.ofLines ls).fault = none ∧ ∀ line ∈ ls, ∃ text, decode? line = some text) ∨
      (Transcript.ofLines ls).fault = some .notUtf8 ∧ ∃ line ∈ ls, decode? line = none := by
  induction ls with
  | nil => exact .inl ⟨rfl, List.forall_mem_nil _⟩
  | cons line ls ih =>
    rw [Transcript.ofLines]
    cases hline : decode? line with
    | none => exact .inr ⟨rfl, line, List.mem_cons_self, hline⟩
    | some text =>
      rcases ih with ⟨hfault, hall⟩ | ⟨hfault, bad, hbad, hnone⟩
      · exact .inl ⟨hfault, List.forall_mem_cons.mpr ⟨⟨text, hline⟩, hall⟩⟩
      · exact .inr ⟨hfault, bad, List.mem_cons_of_mem _ hbad, hnone⟩

theorem exists_line_of_mem_decodeLines {ls : List Bytes} :
    ∀ text ∈ (decodeLines ls).1, encode text ∈ ls := by
  induction ls with
  | nil => exact List.forall_mem_nil _
  | cons line ls ih =>
    rw [decodeLines]
    cases hline : decode? line with
    | none => exact List.forall_mem_nil _
    | some text =>
      rw [Text.decode?_eq_some_iff.mp hline]
      exact List.forall_mem_cons.mpr ⟨List.mem_cons_self, fun other hother =>
        List.mem_cons_of_mem _ (ih other hother)⟩

/-- Where the lines before it have run to their end, the transcript of further lines is what it is
by itself. -/
theorem ofLines_append {ls : List Bytes} (h : (Transcript.ofLines ls).fault = none)
    (later : List Bytes) :
    Transcript.ofLines (ls ++ later)
      = ⟨(Transcript.ofLines ls).records ++ (Transcript.ofLines later).records,
          (Transcript.ofLines later).fault⟩ := by
  induction ls with
  | nil => rfl
  | cons line ls ih =>
    rw [Transcript.ofLines] at h
    rw [List.cons_append, Transcript.ofLines, Transcript.ofLines]
    cases hline : decode? line with
    | none =>
      rw [hline] at h
      cases h
    | some text =>
      rw [hline] at h
      simp [ih h]

/-- What comes after a line that is not UTF-8 is not read. -/
theorem ofLines_append_of_fault {ls : List Bytes} (h : (Transcript.ofLines ls).fault ≠ none)
    (later : List Bytes) : Transcript.ofLines (ls ++ later) = Transcript.ofLines ls := by
  induction ls with
  | nil => exact absurd rfl h
  | cons line ls ih =>
    rw [Transcript.ofLines] at h
    rw [List.cons_append, Transcript.ofLines, Transcript.ofLines]
    cases hline : decode? line with
    | none => rfl
    | some text =>
      rw [hline] at h
      simp [ih h]

/-! ## 2. What is written for a line -/

theorem written_ofLine? (line : Text) (hblank : isBlank line = false) :
    written .output (Record.ofLine? line).toList = encode (shown line) ∧
      written .errors (Record.ofLine? line).toList = encode (reported line) := by
  rw [Record.ofLine?, if_neg (Bool.eq_false_iff.mp hblank), evaluated, shown, reported]
  cases read line with
  | ok value =>
    refine ⟨?_, rfl⟩
    show written .output [⟨.output, value.display⟩] = _
    rw [written_cons, written_nil, List.append_nil]
    rfl
  | error error =>
    refine ⟨rfl, ?_⟩
    show written .errors [⟨.errors, error.message⟩] = _
    rw [written_cons, written_nil, List.append_nil]
    rfl

theorem written_flatMap (texts : List Text) :
    written .output (texts.flatMap fun line => (Record.ofLine? line).toList)
        = encode ((texts.filter fun line => !isBlank line).flatMap shown) ∧
      written .errors (texts.flatMap fun line => (Record.ofLine? line).toList)
        = encode ((texts.filter fun line => !isBlank line).flatMap reported) := by
  induction texts with
  | nil => exact ⟨rfl, rfl⟩
  | cons line texts ih =>
    rw [List.flatMap_cons, written_append, written_append, ih.1, ih.2]
    cases hblank : isBlank line with
    | true =>
      have hnone : Record.ofLine? line = none := if_pos hblank
      rw [hnone, List.filter_cons_of_neg (by simp [hblank])]
      exact ⟨rfl, rfl⟩
    | false =>
      rw [(written_ofLine? line hblank).1, (written_ofLine? line hblank).2,
        List.filter_cons_of_pos (by simp [hblank]), List.flatMap_cons, List.flatMap_cons,
        Text.encode_append, Text.encode_append]
      exact ⟨rfl, rfl⟩

theorem loop_eq_entries (input : Bytes) :
    (loop .unlimited input).output = encode ((entries input).flatMap shown) ∧
      (loop .unlimited input).errors = encode ((entries input).flatMap reported) := by
  rw [loop_unlimited, ofLines_eq]
  exact written_flatMap _

theorem fault_eq_notUtf8_iff (input : Bytes) :
    (loop .unlimited input).fault = some .notUtf8 ↔ ∃ line ∈ lines input, decode? line = none := by
  rw [loop_unlimited]
  rcases fault_ofLines (lines input) with ⟨hfault, hall⟩ | ⟨hfault, hbad⟩
  · simp only [hfault, reduceCtorEq, false_iff]
    rintro ⟨line, hline, hnone⟩
    obtain ⟨text, htext⟩ := hall line hline
    exact nomatch hnone.symm.trans htext
  · exact iff_of_true hfault hbad

theorem fault_eq_none_iff (input : Bytes) :
    (loop .unlimited input).fault = none ↔
      ∀ line ∈ lines input, ∃ text, decode? line = some text := by
  rw [loop_unlimited]
  rcases fault_ofLines (lines input) with ⟨hfault, hall⟩ | ⟨hfault, bad, hbad, hnone⟩
  · exact iff_of_true hfault hall
  · simp only [hfault, reduceCtorEq, false_iff]
    intro hall
    obtain ⟨text, htext⟩ := hall bad hbad
    exact nomatch hnone.symm.trans htext

theorem loop_append {first : Bytes} (hended : first = [] ∨ first.getLast? = some 10)
    (hfault : (loop .unlimited first).fault = none) (later : Bytes) :
    loop .unlimited (first ++ later)
      = ⟨(loop .unlimited first).output ++ (loop .unlimited later).output,
          (loop .unlimited first).errors ++ (loop .unlimited later).errors,
          (loop .unlimited later).fault⟩ := by
  rw [loop_unlimited] at hfault
  simp only [loop_unlimited, lines_append_of_ended hended, ofLines_append hfault, written_append]

/-! ## 3. One line for each -/

/-- The bytes of a line hold a line feed only at their end, and so does its text. -/
theorem isLine_of_encode {text : Text} (h : 10 ∉ (encode text).dropLast) : text.IsLine := by
  intro hmem
  rcases List.eq_nil_or_concat text with rfl | ⟨init, c, rfl⟩
  · cases hmem
  · rw [List.concat_eq_append] at h hmem
    -- The last byte belongs to the last character, so all others keep their bytes.
    have hlast : encode [c] ≠ [] := fun hnil => nomatch Text.encode_eq_nil_iff.mp hnil
    rw [List.dropLast_concat] at hmem
    rw [Text.encode_append, List.dropLast_append_of_ne_nil hlast] at h
    exact h (List.mem_append_left _ (Text.lineFeed_mem_encode_iff.mpr hmem))

theorem isLine_of_mem_entries {input : Bytes} {line : Text} (h : line ∈ entries input) :
    line.IsLine :=
  isLine_of_encode ((cutAtLineFeeds_lines input).inner _
    (exists_line_of_mem_decodeLines line (List.mem_filter.mp h).1))

theorem count_shown_add_count_reported {line : Text} (hline : line.IsLine) :
    (shown line).count '\n' + (reported line).count '\n' = 1 := by
  rw [shown, reported]
  cases hread : read line with
  | ok value =>
    have hvalue := List.count_eq_zero.mpr (lineFeed_notMem_display_of_read hline hread)
    rw [List.count_append, hvalue]
    rfl
  | error error =>
    have herror := List.count_eq_zero.mpr (lineFeed_notMem_message_of_read hread)
    rw [List.count_append, herror]
    rfl

theorem count_flatMap_entries (texts : List Text) (h : ∀ line ∈ texts, line.IsLine) :
    (texts.flatMap shown).count '\n' + (texts.flatMap reported).count '\n' = texts.length := by
  induction texts with
  | nil => rfl
  | cons line texts ih =>
    rcases List.forall_mem_cons.mp h with ⟨hline, htexts⟩
    have hone := count_shown_add_count_reported hline
    have hmore := ih htexts
    rw [List.flatMap_cons, List.flatMap_cons, List.count_append, List.count_append,
      List.length_cons]
    omega

/-- The loop takes each line by itself.  On the output stand the written forms of those lines that
read, on the errors the messages of those that do not, each with a line feed of its own and none
besides; lines that are blank leave nothing, and none is read from the first on that is not UTF-8,
which alone is a fault.  So an input whose first part ends with a line feed, and has no fault, is
read like the two parts one after the other. -/
theorem loop_takes_lines_apart :
    (∀ input : Bytes,
      (loop .unlimited input).output = encode ((entries input).flatMap shown) ∧
      (loop .unlimited input).errors = encode ((entries input).flatMap reported) ∧
      ((loop .unlimited input).fault = some .notUtf8 ↔
        ∃ line ∈ lines input, decode? line = none) ∧
      ((loop .unlimited input).fault = none ↔
        ∀ line ∈ lines input, ∃ text, decode? line = some text) ∧
      (∀ line ∈ entries input, ∀ value, read line = .ok value → '\n' ∉ value.display) ∧
      (∀ line ∈ entries input, ∀ error, read line = .error error → '\n' ∉ error.message) ∧
      (loop .unlimited input).output.count 10 + (loop .unlimited input).errors.count 10
        = (entries input).length) ∧
    ∀ first later : Bytes, first = [] ∨ first.getLast? = some 10 →
      (loop .unlimited first).fault = none →
      loop .unlimited (first ++ later)
        = ⟨(loop .unlimited first).output ++ (loop .unlimited later).output,
            (loop .unlimited first).errors ++ (loop .unlimited later).errors,
            (loop .unlimited later).fault⟩ := by
  refine ⟨fun input => ⟨(loop_eq_entries input).1, (loop_eq_entries input).2,
    fault_eq_notUtf8_iff input, fault_eq_none_iff input,
    fun line hline value => lineFeed_notMem_display_of_read (isLine_of_mem_entries hline),
    fun line _ error => lineFeed_notMem_message_of_read, ?_⟩,
    fun first later hended hfault => loop_append hended hfault later⟩
  rw [(loop_eq_entries input).1, (loop_eq_entries input).2, Text.count_lineFeed_encode,
    Text.count_lineFeed_encode]
  exact count_flatMap_entries _ fun line => isLine_of_mem_entries

/-- A string, a list that is not closed and a comment leave a line, a message and nothing; the line
behind them leaves what it leaves by itself, and what comes after one that is not UTF-8 is not read.
-/
theorem loop_takes_lines_apart_not_utf8 :
    (loop .unlimited (encode "\"a b\"\n(x\n; c\n".toList)).fault = none ∧
      (loop .unlimited (encode "\"a b\"\n(x\n; c\n".toList
        ++ (encode "'y\n".toList ++ [255, 10] ++ encode "z".toList))).output
        = encode "\"a b\"\n".toList ++ encode "(quote y)\n".toList ∧
      (loop .unlimited (encode "\"a b\"\n(x\n; c\n".toList
        ++ (encode "'y\n".toList ++ [255, 10] ++ encode "z".toList))).fault = some .notUtf8 ∧
      '\n' ∉ "(quote y)".toList := by
  have hfirst := loop_takes_lines_apart.1 (encode "\"a b\"\n(x\n; c\n".toList)
  have hlater := loop_takes_lines_apart.1 (encode "'y\n".toList ++ [255, 10] ++ encode "z".toList)
  have hbefore : entries (encode "\"a b\"\n(x\n; c\n".toList)
      = ["\"a b\"\n".toList, "(x\n".toList] := by rfl
  have hbehind : entries (encode "'y\n".toList ++ [255, 10] ++ encode "z".toList)
      = ["'y\n".toList] := by rfl
  have hread : read "'y\n".toList = .ok (.call Sigil.quote.name [.symbol ['y']]) := by rfl
  have hfault : (loop .unlimited (encode "\"a b\"\n(x\n; c\n".toList)).fault = none := by
    rw [loop_unlimited]
    rfl
  have hended : (encode "\"a b\"\n(x\n; c\n".toList).getLast? = some 10 := by decide
  have happend := loop_takes_lines_apart.2 _
    (encode "'y\n".toList ++ [255, 10] ++ encode "z".toList) (.inr hended) hfault
  have hmem : "'y\n".toList ∈ ["'y\n".toList] := List.mem_cons_self
  rw [happend]
  refine ⟨hfault, ?_, ?_, hlater.2.2.2.2.1 _ (hbehind ▸ hmem) _ hread⟩
  · rw [hfirst.1, hlater.1, hbefore, hbehind]
    rfl
  · exact hlater.2.2.1.mpr ⟨[255, 10], by decide, by rfl⟩

end LispForms.Session
