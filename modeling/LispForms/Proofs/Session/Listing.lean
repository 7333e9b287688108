import LispForms.Proofs.Session.Line
import LispForms.Proofs.Session.Loop
import LispForms.Proofs.Session.Terminator
import LispForms.Session.Command

/-!
# Listing — the listing shows what the loop writes

The listing takes the terminator off a line before it reads it, the loop does not.  As a line is
read alike with its terminator and without, the two write the same for each line until there is one
that does not read: there the listing ends, and the loop leaves an error or ends as well.
-/

namespace LispForms.Session

open Reader (Alike)
open Text (encode)

/-- The line is a text, and blank or begun by a form. -/
def reads (line : Bytes) : Bool :=
  match Text.decode? line with
  | none => false
  | some text => isBlank text || (read text).isOk

@[simp] theorem Report.after_nil (report : Report) : report.after [] [] = report := rfl

/-! ## 1. One line -/

/-- What the listing writes for the line and what the loop does, whatever lines follow. -/
structure ServedAs (line : Bytes) (stdout stderr : Text) (records : List Record) : Prop where
  output : encode stdout = written .output records
  errors : written .errors records = []
  listing : ∀ rest, listLines (line :: rest) = (listLines rest).after stdout stderr
  loop : ∀ rest, Transcript.ofLines (line :: rest)
    = { Transcript.ofLines rest with records := records ++ (Transcript.ofLines rest).records }

/-- The line ends the listing, and shows in what the loop leaves behind. -/
structure Stops (line : Bytes) : Prop where
  stdout : ∀ rest, (listLines (line :: rest)).stdout = []
  exit : ∀ rest, (listLines (line :: rest)).exit = 1
  loop : ∀ rest, written .errors (Transcript.ofLines (line :: rest)).records ≠ [] ∨
    (Transcript.ofLines (line :: rest)).fault = some .notUtf8

variable {line : Bytes} {text : Text}

theorem servedAs_of_isBlank (hdecode : Text.decode? line = some text)
    (hblank : isBlank text = true) : ServedAs line [] [] [] := by
  have hentry : isBlank (dropTerminator text) = true := by rwa [isBlank_dropTerminator]
  refine ⟨rfl, rfl, fun rest => ?_, fun rest => ?_⟩
  · simp [listLines, hdecode, hentry]
  · simp [Transcript.ofLines, hdecode, Record.ofLine?, hblank]

theorem servedAs_of_ok {value : Value} (hdecode : Text.decode? line = some text)
    (hblank : isBlank text = false) (hread : read text = .ok value) :
    ServedAs line (value.display ++ ['\n']) (value.inspect ++ ['\n'])
      [⟨.output, value.display⟩] := by
  have hentry : isBlank (dropTerminator text) = false := by rwa [isBlank_dropTerminator]
  have hstripped : read (dropTerminator text) = .ok value :=
    (hread ▸ alike_read_dropTerminator text).eq_ok
  have hevaluated : evaluated text = .ok value.display := by
    rw [evaluated, hread]
    rfl
  refine ⟨?_, rfl, fun rest => ?_, fun rest => ?_⟩
  · rw [written_cons, written_nil, List.append_nil]
    rfl
  · simp [listLines, hdecode, hentry, hstripped]
  · simp [Transcript.ofLines, hdecode, Record.ofLine?, hblank, hevaluated]

theorem stops_of_notUtf8 (hdecode : Text.decode? line = none) : Stops line := by
  refine ⟨fun rest => ?_, fun rest => ?_, fun rest => .inr ?_⟩
  · simp [listLines, hdecode, Report.failure]
  · simp [listLines, hdecode, Report.failure]
  · simp [Transcript.ofLines, hdecode]

theorem stops_of_error {error : ReadError} (hdecode : Text.decode? line = some text)
    (hblank : isBlank text = false) (hread : read text = .error error) : Stops line := by
  have hentry : isBlank (dropTerminator text) = false := by rwa [isBlank_dropTerminator]
  -- The error without the terminator may quote another token.
  obtain ⟨error', hstripped⟩ : ∃ error', read (dropTerminator text) = .error error' :=
    (hread ▸ alike_read_dropTerminator text).eq_error
  have hevaluated : evaluated text = .error error := by rw [evaluated, hread]
  refine ⟨fun rest => ?_, fun rest => ?_, fun rest => .inl ?_⟩
  · simp [listLines, hdecode, hentry, hstripped, Report.failure]
  · simp [listLines, hdecode, hentry, hstripped, Report.failure]
  · have hrecord : (Transcript.ofLines (line :: rest)).records
        = ⟨.errors, error.message⟩ :: (Transcript.ofLines rest).records := by
      simp [Transcript.ofLines, hdecode, Record.ofLine?, hblank, hevaluated]
    rw [hrecord, written_cons]
    exact List.append_ne_nil_of_left_ne_nil (Record.bytes_ne_nil _) _

theorem exists_servedAs (h : reads line = true) :
    ∃ stdout stderr records, ServedAs line stdout stderr records := by
  cases hdecode : Text.decode? line with
  | none => simp [reads, hdecode] at h
  | some text =>
    cases hblank : isBlank text with
    | true => exact ⟨_, _, _, servedAs_of_isBlank hdecode hblank⟩
    | false =>
      cases hread : read text with
      | ok value => exact ⟨_, _, _, servedAs_of_ok hdecode hblank hread⟩
      | error error =>
        rw [reads, hdecode] at h
        simp only [hblank, hread] at h
        cases h

theorem stops_of_not_reads (h : reads line = false) : Stops line := by
  cases hdecode : Text.decode? line with
  | none => exact stops_of_notUtf8 hdecode
  | some text =>
    rw [reads, hdecode, Bool.or_eq_false_iff] at h
    cases hread : read text with
    | ok value =>
      rw [hread] at h
      cases h.2
    | error error => exact stops_of_error hdecode h.1 hread

/-! ## 2. All lines -/

theorem stdout_listLines (ls : List Bytes) :
    encode (listLines ls).stdout
      = written .output (Transcript.ofLines (ls.takeWhile reads)).records := by
  induction ls with
  | nil => rfl
  | cons line ls ih =>
    cases hreads : reads line with
    | false =>
      rw [(stops_of_not_reads hreads).stdout, List.takeWhile_cons_of_neg (by simp [hreads])]
      rfl
    | true =>
      obtain ⟨stdout, stderr, records, hserved⟩ := exists_servedAs hreads
      rw [List.takeWhile_cons_of_pos hreads, hserved.listing, hserved.loop, written_append,
        ← hserved.output, ← ih]
      exact Text.encode_append _ _

/-- The loop goes on from where the lines that read have brought it. -/
theorem records_prefix (ls : List Bytes) :
    (Transcript.ofLines (ls.takeWhile reads)).records <+: (Transcript.ofLines ls).records := by
  induction ls with
  | nil => exact List.prefix_rfl
  | cons line ls ih =>
    cases hreads : reads line with
    | false =>
      rw [List.takeWhile_cons_of_neg (by simp [hreads])]
      exact List.nil_prefix
    | true =>
      obtain ⟨stdout, stderr, records, hserved⟩ := exists_servedAs hreads
      rw [List.takeWhile_cons_of_pos hreads, hserved.loop, hserved.loop]
      exact List.prefix_append_right_inj records |>.mpr ih

theorem exit_listLines (ls : List Bytes) :
    (listLines ls).exit = 0 ↔ ∀ line ∈ ls, reads line = true := by
  induction ls with
  | nil => simp [listLines, Report.success]
  | cons line ls ih =>
    cases hreads : reads line with
    | false => simp [(stops_of_not_reads hreads).exit, hreads]
    | true =>
      obtain ⟨stdout, stderr, records, hserved⟩ := exists_servedAs hreads
      rw [hserved.listing, List.forall_mem_cons, ← ih]
      exact ⟨fun hexit => ⟨hreads, hexit⟩, fun hall => hall.2⟩

/-- The loop leaves no error and ends with its input exactly if every line reads. -/
theorem ofLines_clean_iff (ls : List Bytes) :
    written .errors (Transcript.ofLines ls).records = [] ∧
        (Transcript.ofLines ls).fault ≠ some .notUtf8 ↔ ∀ line ∈ ls, reads line = true := by
  induction ls with
  | nil => simp [Transcript.ofLines]
  | cons line ls ih =>
    cases hreads : reads line with
    | false =>
      have hloop := (stops_of_not_reads hreads).loop ls
      simp only [List.forall_mem_cons, hreads, Bool.false_eq_true, false_and, iff_false, not_and]
      exact fun herrors hfault => hloop.elim (fun h => h herrors) hfault
    | true =>
      obtain ⟨stdout, stderr, records, hserved⟩ := exists_servedAs hreads
      rw [hserved.loop, written_append, hserved.errors, List.nil_append, List.forall_mem_cons, ← ih]
      exact ⟨fun hclean => ⟨hreads, hclean⟩, fun hall => hall.2⟩

/-! ## 3. Whole inputs -/

theorem loop_takeWhile_reads (input : Bytes) :
    (loop .unlimited ((lines input).takeWhile reads).flatten).output
      = written .output (Transcript.ofLines ((lines input).takeWhile reads)).records := by
  rw [loop_unlimited, lines_flatten (List.takeWhile_prefix reads)]

/-- Whatever ends a line, it is blank or not, and read as the same form or not at all; the error is
the same, up to the open string that the metadata mark quotes.  So on every input the listing writes
what the loop puts on its output for the lines before the first that does not read, with which all
that the loop puts there begins; and all is well with the listing exactly if the loop has no error
to write and meets nothing that is not UTF-8. -/
theorem listing_follows_loop :
    (∀ line : Text, ∀ ending ∈ terminators, ∀ ending' ∈ terminators,
      isBlank (line ++ ending) = isBlank (line ++ ending') ∧
        Alike (read (line ++ ending)) (read (line ++ ending'))) ∧
    ∀ input : Bytes,
      encode (listing input).stdout
          = (loop .unlimited ((lines input).takeWhile reads).flatten).output ∧
        (loop .unlimited ((lines input).takeWhile reads).flatten).output
          <+: (loop .unlimited input).output ∧
        ((listing input).exit = 0 ↔
          (loop .unlimited input).errors = [] ∧ (loop .unlimited input).fault ≠ some .notUtf8) := by
  refine ⟨fun line ending hending ending' hending' => ⟨isBlank_terminator line hending hending',
    alike_read_terminator line hending hending'⟩, fun input => ⟨?_, ?_, ?_⟩⟩
  · rw [loop_takeWhile_reads]
    exact stdout_listLines (lines input)
  · obtain ⟨later, hlater⟩ := records_prefix (lines input)
    rw [loop_takeWhile_reads, loop_unlimited, ← hlater, written_append]
    exact List.prefix_append _ _
  · rw [loop_unlimited, ofLines_clean_iff]
    exact exit_listLines (lines input)

/-- Behind `^` the string in `"x\` is cut off before its backslash, and goes on to the end of the
line if a carriage return follows; so the two errors quote different tokens.  With such a line
between two symbols, the listing shows the first symbol and fails, and the loop has an error to
write. -/
theorem listing_follows_loop_open_string :
    read "^\"x\\".toList = .error ⟨[noteOf metadataName], .noMapping 1 "\"x".toList⟩ ∧
      read "^\"x\\\r\n".toList
        = .error ⟨[noteOf metadataName], .noMapping 1 "\"x\\\r\n".toList⟩ ∧
      Alike (read "^\"x\\".toList) (read "^\"x\\\r\n".toList) ∧
      encode (listing (encode "a\n^\"x\\\r\nb".toList)).stdout = encode "a\n".toList ∧
      encode "a\n".toList <+: (loop .unlimited (encode "a\n^\"x\\\r\nb".toList)).output ∧
      (listing (encode "a\n^\"x\\\r\nb".toList)).exit = 1 ∧
      (loop .unlimited (encode "a\n^\"x\\\r\nb".toList)).errors ≠ [] := by
  have halike :=
    (listing_follows_loop.1 "^\"x\\".toList [] (by decide) ['\r', '\n'] (by decide)).2
  obtain ⟨hstdout, hprefix, hexit⟩ := listing_follows_loop.2 (encode "a\n^\"x\\\r\nb".toList)
  have hshown : encode (listing (encode "a\n^\"x\\\r\nb".toList)).stdout
      = encode "a\n".toList := by rfl
  have hfails : (listing (encode "a\n^\"x\\\r\nb".toList)).exit = 1 := by rfl
  have hfault : (loop .unlimited (encode "a\n^\"x\\\r\nb".toList)).fault = none := by
    rw [loop_unlimited]
    rfl
  rw [← hstdout, hshown] at hprefix
  rw [hfails, hfault] at hexit
  refine ⟨by rfl, by rfl, halike, hshown, hprefix, hfails, fun herrors => ?_⟩
  exact absurd (hexit.mpr ⟨herrors, nofun⟩) (by decide)

end LispForms.Session
