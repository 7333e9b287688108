import LispForms.Proofs.Session.Complete
import LispForms.Proofs.Session.Line
import LispForms.Session.Command

/-!
# Dialogue — gathering lines into entries keeps tokens whole

Lines are gathered up to the first line break that separates tokens, and there an entry ends.  So
the tokens of the input are those of its entries, one after another, and of what is left; and what
is left is inside a string, where no reply can be given.
-/

namespace LispForms.Session

open Text (encode)
open Token (tokenize)

/-! ## 1. Where an entry goes on -/

/-- At no line break inside the text was the text before it complete. -/
def OpenAtBreaks (text : Text) : Prop :=
  ∀ front back, text = front ++ '\n' :: back → isComplete front = false

namespace OpenAtBreaks

theorem nil : OpenAtBreaks [] := fun _ _ h => by simp at h

theorem append {text body : Text} (h : OpenAtBreaks text) (hbody : '\n' ∉ body) :
    OpenAtBreaks (text ++ body) := by
  -- There is no break in the body, so it is one of the text's.
  intro front back hsplit
  rcases List.append_eq_append_iff.mp hsplit with ⟨more, -, hmore⟩ | ⟨more, htext, hmore⟩
  · exact absurd (hmore ▸ List.mem_append_right more List.mem_cons_self) hbody
  · cases more with
    | nil =>
      rw [List.nil_append] at hmore
      exact absurd (hmore ▸ List.mem_cons_self) hbody
    | cons c more =>
      obtain ⟨rfl, -⟩ := List.cons.inj hmore
      exact h front more htext

theorem lineFeed {text : Text} (h : OpenAtBreaks text) (hopen : isComplete text = false) :
    OpenAtBreaks (text ++ ['\n']) := by
  -- The break is the new one at the end, or one of the text's.
  intro front back hsplit
  rcases List.eq_nil_or_concat back with rfl | ⟨back, c, rfl⟩
  · rwa [← List.append_cancel_right hsplit]
  · rw [← List.concat_cons, List.concat_eq_append, ← List.append_assoc] at hsplit
    exact h front back (List.append_inj_left' hsplit rfl)

end OpenAtBreaks

/-! ## 2. Gathering -/

/-- The entries that a text is gathered into, and what is left of it. -/
structure Gathered (text : Text) (entries : List Text) (rest : Text) : Prop where
  tokens : tokenize text = entries.flatMap tokenize ++ tokenize rest
  complete : ∀ entry ∈ entries, isComplete entry = true
  unfinished : rest = [] ∨ isComplete rest = false
  /-- Each entry ends at the first break where it can. -/
  entriesOpen : ∀ entry ∈ entries, OpenAtBreaks entry
  restOpen : OpenAtBreaks rest
  /-- Nothing is lost but line feeds; the text may lack the last of them. -/
  lines : entries.flatMap (· ++ ['\n']) ++ rest = text ∨
    entries.flatMap (· ++ ['\n']) = text ++ ['\n'] ∧ rest = []

theorem Gathered.nil {rest : Text} (h : rest = [] ∨ isComplete rest = false)
    (hopen : OpenAtBreaks rest) : Gathered rest [] rest :=
  ⟨rfl, List.forall_mem_nil _, h, List.forall_mem_nil _, hopen, .inl rfl⟩

theorem Gathered.singleton {entry : Text} (h : isComplete entry = true)
    (hopen : OpenAtBreaks entry) : Gathered entry [entry] [] := by
  refine ⟨?_, List.forall_mem_singleton.mpr h, .inl rfl, List.forall_mem_singleton.mpr hopen,
    .nil, .inr ⟨by simp, rfl⟩⟩
  rw [List.flatMap_singleton, show tokenize [] = [] from rfl, List.append_nil]

theorem Gathered.cons {entry text rest : Text} {entries : List Text}
    (hentry : isComplete entry = true) (hopen : OpenAtBreaks entry)
    (h : Gathered text entries rest) :
    Gathered (entry ++ '\n' :: text) (entry :: entries) rest := by
  refine ⟨?_, List.forall_mem_cons.mpr ⟨hentry, h.complete⟩, h.unfinished,
    List.forall_mem_cons.mpr ⟨hopen, h.entriesOpen⟩, h.restOpen, ?_⟩
  · rw [tokenize_lineFeed hentry, h.tokens, List.flatMap_cons, List.append_assoc]
  · rcases h.lines with hlines | ⟨hlines, hrest⟩
    · refine .inl ?_
      rw [← hlines]
      simp
    · refine .inr ⟨?_, hrest⟩
      rw [List.flatMap_cons, hlines]
      simp

theorem gather_cons_of_complete {unfinished line : Text} (rest : List Text)
    (h : isComplete (unfinished ++ dropTerminator line) = true) :
    gather unfinished (line :: rest)
      = ((unfinished ++ dropTerminator line) :: (gather [] rest).1, (gather [] rest).2) := by
  rw [gather, if_pos h]

theorem gather_cons_of_incomplete {unfinished line : Text} (rest : List Text)
    (h : isComplete (unfinished ++ dropTerminator line) = false) :
    gather unfinished (line :: rest) = gather (unfinished ++ line) rest := by
  rw [gather, if_neg (Bool.eq_false_iff.mp h)]

theorem gathered_gather {input : Text} (hreturn : '\r' ∉ input) (unfinished : Text)
    (hunfinished : unfinished = [] ∨ isComplete unfinished = false)
    (hopen : OpenAtBreaks unfinished) :
    Gathered (unfinished ++ input) (gather unfinished (decodeLines (lines (encode input))).1).1
      (gather unfinished (decodeLines (lines (encode input))).1).2 := by
  -- Line by line; what is unfinished is what the lines before have left open.
  induction input using line_induction '\n' generalizing unfinished with
  | last body hbody =>
    cases body with
    | nil =>
      rw [List.append_nil]
      exact .nil hunfinished hopen
    | cons c body =>
      have hdrop := dropTerminator_of_notMem hbody
      have hentry : OpenAtBreaks (unfinished ++ c :: body) := hopen.append hbody
      rw [decodeLines_of_notMem hbody (List.cons_ne_nil _ _)]
      cases hcomplete : isComplete (unfinished ++ c :: body) with
      | true =>
        rw [gather_cons_of_complete _ (by rwa [hdrop]), hdrop]
        exact .singleton hcomplete hentry
      | false =>
        rw [gather_cons_of_incomplete _ (by rwa [hdrop])]
        exact .nil (.inr hcomplete) hentry
  | line body rest hbody ih =>
    obtain ⟨hbodyReturn, hrestReturn⟩ : '\r' ∉ body ∧ '\r' ∉ rest := by simpa using hreturn
    have hdrop : dropTerminator (body ++ ['\n']) = body :=
      dropTerminator_lineFeed fun hlast => hbodyReturn (List.mem_of_getLast? hlast)
    have hsplit : unfinished ++ (body ++ '\n' :: rest) = (unfinished ++ body) ++ '\n' :: rest :=
      (List.append_assoc _ _ _).symm
    have hentry : OpenAtBreaks (unfinished ++ body) := hopen.append hbody
    rw [decodeLines_append hbody]
    cases hcomplete : isComplete (unfinished ++ body) with
    | true =>
      rw [gather_cons_of_complete _ (by rwa [hdrop]), hdrop, hsplit]
      exact .cons hcomplete hentry (ih hrestReturn [] (.inl rfl) .nil)
    | false =>
      have hmore := ih hrestReturn (unfinished ++ body ++ ['\n'])
        (.inr (isComplete_lineFeed hcomplete)) (hentry.lineFeed hcomplete)
      rw [gather_cons_of_incomplete _ (by rwa [hdrop]), ← List.append_assoc]
      simpa using hmore

theorem dialogue_encode (input : Text) :
    dialogue (encode input)
      = ⟨0, replies (gather [] (decodeLines (lines (encode input))).1).1, []⟩ := by
  rw [dialogue, if_pos (decodeLines_encode input)]
  simp [Report.after, Report.success]

/-- The entries of an input without carriage returns hold its tokens whole and in order, together
with the rest that is left unfinished; nothing but line feeds is left out.  Every entry is complete
and has been so at no line break before, and the rest is empty or incomplete and has never been
complete at one.  Each entry that is not blank gets its reply, on a line of its own, and all ends
well. -/
theorem dialogue_keeps_tokens (bytes : Bytes) (input : Text)
    (hinput : Text.decode? bytes = some input) (hreturn : '\r' ∉ input) :
    ∃ entries rest, gather [] (decodeLines (lines bytes)).1 = (entries, rest) ∧
      tokenize input = entries.flatMap tokenize ++ tokenize rest ∧
      (∀ entry ∈ entries, isComplete entry = true) ∧ (rest = [] ∨ isComplete rest = false) ∧
      (∀ entry ∈ entries, OpenAtBreaks entry) ∧ OpenAtBreaks rest ∧
      (entries.flatMap (· ++ ['\n']) ++ rest = input ∨
        entries.flatMap (· ++ ['\n']) = input ++ ['\n'] ∧ rest = []) ∧
      (dialogue bytes).stdout = (entries.filter fun entry => !isBlank entry).flatMap
        (fun entry => reply entry ++ ['\n']) ∧
      (dialogue bytes).exit = 0 := by
  obtain rfl := Text.decode?_eq_some_iff.mp hinput
  have hgathered := gathered_gather hreturn [] (.inl rfl) .nil
  refine ⟨_, _, rfl, hgathered.tokens, hgathered.complete, hgathered.unfinished,
    hgathered.entriesOpen, hgathered.restOpen, hgathered.lines, ?_, ?_⟩
  · rw [dialogue_encode]
    rfl
  · rw [dialogue_encode]

/-- Of the three lines the first two are one entry, as a string goes on from one to the other; the
string in the third one stays open, and gets no reply. -/
theorem dialogue_keeps_string :
    Text.decode? (encode "\"a\nb\"\n\"c".toList) = some "\"a\nb\"\n\"c".toList ∧
      '\r' ∉ "\"a\nb\"\n\"c".toList ∧
      tokenize "\"a\nb\"\n\"c".toList = tokenize "\"a\nb\"".toList ++ tokenize "\"c".toList ∧
      isComplete "\"a\nb\"".toList = true ∧ isComplete "\"a".toList = false ∧
      isComplete "\"c".toList = false ∧
      (dialogue (encode "\"a\nb\"\n\"c".toList)).stdout = "\"a\nb\"\n".toList ∧
      (dialogue (encode "\"a\nb\"\n\"c".toList)).exit = 0 := by
  have hdecode : Text.decode? (encode "\"a\nb\"\n\"c".toList) = some "\"a\nb\"\n\"c".toList :=
    Text.decode?_encode _
  have hreturn : '\r' ∉ "\"a\nb\"\n\"c".toList := by decide
  rcases dialogue_keeps_tokens _ _ hdecode hreturn with
    ⟨entries, rest, hgather, htokens, hcomplete, hrest, hopen, -, -, hstdout, hexit⟩
  have hentries : gather [] (decodeLines (lines (encode "\"a\nb\"\n\"c".toList))).1
      = (["\"a\nb\"".toList], "\"c".toList) := by rfl
  cases hentries.symm.trans hgather
  refine ⟨hdecode, hreturn, ?_, hcomplete _ List.mem_cons_self,
    hopen _ List.mem_cons_self "\"a".toList "b\"".toList (by rfl),
    hrest.resolve_left (by decide), hstdout, hexit⟩
  rwa [List.flatMap_singleton] at htokens

end LispForms.Session
