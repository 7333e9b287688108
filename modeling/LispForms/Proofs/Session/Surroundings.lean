import LispForms.Proofs.Session.Complete
import LispForms.Proofs.Session.Listing

/-!
# Surroundings — what stands around a form that reads

A separator behind a text leaves its tokens alone, unless the text ends inside a string; and in that
case no form has been read that far.  So a text that reads goes on to read when a separator and any
other text are put behind it, or blank lines in front.  A whole input is therefore read as the first
of its lines that is not blank, if that line reads.

Main statement: `read_surrounded`.
-/

namespace LispForms

namespace Reader

open Token (BeginsOpen)

variable {levels position : Nat} {state : ReadState} {tokens : List Token} {value : Value}

/-- A form that has been read stays, whatever tokens come behind. -/
theorem run_append_of_ok (h : (run levels state position tokens).result = .ok value)
    (more : List Token) : (run levels state position (tokens ++ more)).result = .ok value := by
  cases hafter : stateAfter levels state position tokens with
  | none =>
    rw [run_append_of_none hafter]
    exact h
  | some after =>
    rw [run_of_some hafter] at h
    cases h

/-- A form that has been read from tokens with an open string among them has been read from those
in front of the string. -/
theorem run_append_of_beginsOpen {first : List Token} (hopen : BeginsOpen tokens)
    (h : (run levels state position (first ++ tokens)).result = .ok value) (others : List Token) :
    (run levels state position (first ++ others)).result = .ok value := by
  cases hafter : stateAfter levels state position first with
  | none =>
    rw [run_append_of_none hafter] at h ⊢
    exact h
  | some after =>
    rcases hopen with ⟨token, more, rfl, htoken⟩
    rw [run_append_of_some hafter, run_openString htoken] at h
    cases h

end Reader

/-! ## 1. A separator behind a text -/

namespace Token.Scan

variable {scan : Scan} {c : Char}

/-- A separator ends the token in progress as the end of the text does, except for a string. -/
theorem Sound.tokens_separator (h : scan.Sound) (hc : c ∈ separators) (rest : Text) :
    (∃ later, scan.tokens (c :: rest) = scan.finish ++ later) ∨ BeginsOpen scan.finish := by
  cases scan with
  | gap => exact .inl ⟨_, rfl⟩
  | comment => exact .inl ⟨_, rfl⟩
  | tilde => exact .inl ⟨_, tilde_tokens_separator hc rest⟩
  | bare read => exact .inl ⟨_, bare_tokens_separator hc read rest⟩
  | string read => exact .inr ⟨read.reverse, [], rfl, h.isOpenString⟩
  | escape read => exact .inr ⟨read.reverse, [['\\']], rfl, Sound.isOpenString h⟩

end Token.Scan

open Token (separators tokenize)

variable {text : Text} {value : Value} {c : Char}

theorem read_append_separator (h : read text = .ok value) (hc : c ∈ separators) (rest : Text) :
    read (text ++ c :: rest) = .ok value := by
  rw [read, Token.tokenize_eq] at h
  rw [read, Token.tokenize_append]
  -- Either the tokens stay and others come behind, or the form has ended before an open string.
  rcases (Token.sound_standing text).tokens_separator hc rest with ⟨later, hlater⟩ | hopen
  · rw [hlater, ← List.append_assoc]
    exact Reader.run_append_of_ok h later
  · exact Reader.run_append_of_beginsOpen hopen h _

namespace Session

open Text (encode)

/-! ## 2. Blank lines in front -/

theorem tokenize_eq_nil_of_isBlank (h : isBlank text = true) : tokenize text = [] :=
  List.isEmpty_iff.mp h

theorem isComplete_of_isBlank (h : isBlank text = true) : isComplete text = true := by
  rw [isComplete, tokenize_eq_nil_of_isBlank h]
  rfl

theorem read_behind_blank (h : isBlank text = true) (rest : Text) :
    read (text ++ '\n' :: rest) = read rest := by
  rw [read, tokenize_lineFeed (isComplete_of_isBlank h), tokenize_eq_nil_of_isBlank h]
  rfl

/-! ## 3. The first line that is not blank -/

/-- The first line of the input that is not blank, without its terminator. -/
def firstLine? (input : Bytes) : Option Text :=
  ((decodeLines (lines input)).1.map dropTerminator).find? fun entry => !isBlank entry

theorem firstLine?_append {body : Text} (hbody : '\n' ∉ body) (rest : Text) :
    firstLine? (encode (body ++ '\n' :: rest)) =
      if isBlank (dropTerminator (body ++ ['\n'])) then firstLine? (encode rest)
      else some (dropTerminator (body ++ ['\n'])) := by
  rw [firstLine?, decodeLines_append hbody, List.map_cons, List.find?_cons]
  cases isBlank (dropTerminator (body ++ ['\n'])) <;> rfl

theorem firstLine?_of_notMem {body : Text} (hbody : '\n' ∉ body) :
    firstLine? (encode body) = if isBlank body then none else some body := by
  cases body with
  | nil => rfl
  | cons c body =>
    rw [firstLine?, decodeLines_of_notMem hbody (List.cons_ne_nil _ _), List.map_singleton,
      dropTerminator_of_notMem hbody, List.find?_cons]
    cases isBlank (c :: body) <;> rfl

/-- A form is read from a line with its terminator and without. -/
theorem read_of_read_dropTerminator {body : Text}
    (h : read (dropTerminator (body ++ ['\n'])) = .ok value) :
    read (body ++ ['\n']) = .ok value ∧ read body = .ok value := by
  have hnone : ([] : Text) ∈ terminators := by decide
  have hline : read (body ++ ['\n']) = .ok value := by
    rcases exists_terminator (body ++ ['\n']) with ⟨ending, hending, hsplit⟩
    have halike := alike_read_terminator (dropTerminator (body ++ ['\n'])) hending hnone
    rw [hsplit, List.append_nil, h] at halike
    exact halike.eq_ok
  have halike := alike_read_terminator body hnone (show ['\n'] ∈ terminators by decide)
  rw [List.append_nil, hline] at halike
  exact ⟨hline, halike.eq_ok⟩

/-- The report begins with the value, in both of its forms. -/
def Report.BeginsWith (report : Report) (value : Value) : Prop :=
  ∃ stdout stderr, report.stdout = value.display ++ '\n' :: stdout ∧
    report.stderr = value.inspect ++ '\n' :: stderr

theorem beginsWith_of_servedAs {line : Bytes} {records : List Record}
    (h : ServedAs line (value.display ++ ['\n']) (value.inspect ++ ['\n']) records)
    (rest : List Bytes) : (listLines (line :: rest)).BeginsWith value := by
  rw [h.listing]
  exact ⟨_, _, List.append_assoc _ _ _, List.append_assoc _ _ _⟩

/-- The whole text is read as its first line that is not blank, and that one is listed first. -/
theorem read_and_listing_of_firstLine? {entry : Text} (hread : read entry = .ok value)
    (hfirst : firstLine? (encode text) = some entry) :
    read text = .ok value ∧ (listing (encode text)).BeginsWith value := by
  unfold listing
  -- Line by line, as the listing is made; the text itself is read in one piece.
  induction text using line_induction '\n' with
  | last body hbody =>
    rw [firstLine?_of_notMem hbody] at hfirst
    split at hfirst
    · cases hfirst
    · next hblank =>
      cases hfirst
      have hne : entry ≠ [] := by
        rintro rfl
        exact hblank rfl
      have hdecode := Text.decode?_encode entry
      have hserved := servedAs_of_ok hdecode (Bool.eq_false_iff.mpr hblank) hread
      rw [lines_encode_of_notMem hbody hne]
      exact ⟨hread, beginsWith_of_servedAs hserved []⟩
  | line body rest hbody ih =>
    have hdecode := Text.decode?_encode (body ++ ['\n'])
    rw [firstLine?_append hbody, isBlank_dropTerminator] at hfirst
    rw [lines_encode_append hbody]
    split at hfirst
    · next hblank =>
      -- A blank line is passed over by both.
      rcases ih hfirst with ⟨hrest, hlisting⟩
      have hbody : isBlank body = true := by
        have hsame := isBlank_terminator body (show ['\n'] ∈ terminators by decide)
          (show [] ∈ terminators by decide)
        rwa [List.append_nil, hblank, eq_comm] at hsame
      rw [read_behind_blank hbody, (servedAs_of_isBlank hdecode hblank).listing]
      exact ⟨hrest, hlisting⟩
    · next hblank =>
      cases hfirst
      rcases read_of_read_dropTerminator hread with ⟨hline, hbodyRead⟩
      have hserved := servedAs_of_ok hdecode (Bool.eq_false_iff.mpr hblank) hline
      exact ⟨read_append_separator hbodyRead (by decide) rest, beginsWith_of_servedAs hserved _⟩

/-- A text that reads is read alike behind a blank text and a line feed and in front of a separator
and any other text.  So where the first line of an input that is not blank reads, the input is drawn
as the value of that line, and the listing begins with this value. -/
theorem read_surrounded :
    (∀ (before text after : Text) (c : Char) (value : Value), isBlank before = true →
      read text = .ok value → c ∈ separators →
        read (before ++ ['\n'] ++ text ++ [c] ++ after) = .ok value) ∧
    ∀ (input : Bytes) (text entry : Text) (value : Value), Text.decode? input = some text →
      firstLine? input = some entry → read entry = .ok value →
        drawing input = ⟨0, Graph.dot value, []⟩ ∧
        ∃ stdout stderr, (listing input).stdout = value.display ++ '\n' :: stdout ∧
          (listing input).stderr = value.inspect ++ '\n' :: stderr := by
  refine ⟨fun before text after c value hblank hread hc => ?_,
    fun input text entry value hdecode hfirst hread => ?_⟩
  · have hafter := read_append_separator hread hc after
    rw [← read_behind_blank hblank] at hafter
    simpa using hafter
  · have hinput := hdecode
    rw [Text.decode?_eq_some_iff] at hinput
    subst hinput
    rcases read_and_listing_of_firstLine? hread hfirst with ⟨htext, hlisting⟩
    refine ⟨?_, hlisting⟩
    rw [drawing, hdecode]
    simp only [htext]

/-- The string that `(a) "b` leaves open takes in what comes behind, up to another quote. -/
theorem read_surrounded_open_string :
    read ("; note".toList ++ ['\n'] ++ "(a) \"b".toList ++ [' '] ++ "\" ;".toList)
        = .ok (.list [.symbol ['a']]) ∧
      drawing (encode ", \n(a) \"b\n\" ;".toList)
        = ⟨0, Graph.dot (.list [.symbol ['a']]), []⟩ := by
  have hread : read "(a) \"b".toList = .ok (.list [.symbol ['a']]) := by rfl
  have hentry : firstLine? (encode ", \n(a) \"b\n\" ;".toList) = some "(a) \"b".toList := by rfl
  constructor
  · exact read_surrounded.1 _ _ _ _ _ (by rfl) hread (by decide)
  · exact (read_surrounded.2 _ _ _ _ (Text.decode?_encode _) hentry hread).1

end Session

end LispForms
