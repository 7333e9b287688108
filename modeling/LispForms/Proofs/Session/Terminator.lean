import LispForms.Proofs.Reader.OpenString
import LispForms.Session.Line
import LispForms.Session.Reply

/-!
# Terminator — a line is read alike with its terminator and without

The end of a line separates tokens, so it changes the tokens of the line only if it goes into a
string; and that string is then open with it and without it, so that no reading gets past it.
-/

namespace LispForms

/-- What may end a line: nothing, a line feed, or a carriage return and a line feed. -/
def Session.terminators : List Text := [[], ['\n'], ['\r', '\n']]

namespace Token

open Session (terminators)

theorem forall_mem_terminators {motive : Text → Prop} :
    (∀ ending ∈ terminators, motive ending) ↔ motive [] ∧ motive ['\n'] ∧ motive ['\r', '\n'] := by
  simp [terminators]

/-! ## 1. The scanner at the end of a line -/

namespace Scan

theorem Sound.beginsOpen_string {read : Text} (h : (Scan.string read).Sound) {ending : Text}
    (hending : ending ∈ terminators) : BeginsOpen ((Scan.string read).tokens ending) := by
  -- The terminator goes into the string, which the end of the text cuts off.
  have hrun : ∀ ending ∈ terminators,
      (Scan.string read).run ending = ([], .string (ending.reverse ++ read)) :=
    forall_mem_terminators.mpr ⟨rfl, rfl, rfl⟩
  have hsound := (h.run ending).1
  rw [hrun ending hending] at hsound
  rw [tokens_eq_run, hrun ending hending]
  exact ⟨_, [], rfl, hsound.isOpenString⟩

theorem Sound.beginsOpen_escape {read : Text} (h : (Scan.escape read).Sound) {ending : Text}
    (hending : ending ∈ terminators) : BeginsOpen ((Scan.escape read).tokens ending) := by
  -- A line feed ends the string before the backslash, a carriage return goes into it.
  have hcut : BeginsOpen [read.reverse, ['\\']] := ⟨_, _, rfl, Sound.isOpenString h⟩
  have hreturn : (Scan.string ('\r' :: '\\' :: read)).Sound := (h.step '\r').1
  have hlonger : BeginsOpen ((Scan.string ('\r' :: '\\' :: read)).tokens ['\n']) :=
    hreturn.beginsOpen_string (by decide)
  have hall : ∀ ending ∈ terminators, BeginsOpen ((Scan.escape read).tokens ending) :=
    forall_mem_terminators.mpr ⟨hcut, hcut, hlonger⟩
  exact hall ending hending

/-- Either no terminator makes a difference to the tokens, or the next token is an open string with
each of them. -/
theorem Sound.tokens_terminator {scan : Scan} (h : scan.Sound) :
    (∀ ending ∈ terminators, scan.tokens ending = scan.finish) ∨
      ∀ ending ∈ terminators, BeginsOpen (scan.tokens ending) := by
  -- Outside of a string the characters of a terminator separate, or go into a comment.
  cases scan with
  | gap => exact .inl (forall_mem_terminators.mpr ⟨rfl, rfl, rfl⟩)
  | comment => exact .inl (forall_mem_terminators.mpr ⟨rfl, rfl, rfl⟩)
  | tilde => exact .inl (forall_mem_terminators.mpr ⟨rfl, rfl, rfl⟩)
  | bare read => exact .inl (forall_mem_terminators.mpr ⟨rfl, rfl, rfl⟩)
  | string read => exact .inr fun ending => h.beginsOpen_string
  | escape read => exact .inr fun ending => h.beginsOpen_escape

end Scan

theorem tokenize_terminator (line : Text) :
    (∀ ending ∈ terminators, tokenize (line ++ ending) = tokenize line) ∨
      ∃ first, ∀ ending ∈ terminators, ∃ later,
        tokenize (line ++ ending) = first ++ later ∧ BeginsOpen later := by
  rcases (sound_standing line).tokens_terminator with hsame | hopen
  · refine .inl fun ending hending => ?_
    rw [tokenize_append, tokenize_eq line, hsame ending hending]
  · exact .inr ⟨settled line, fun ending hending =>
      ⟨_, tokenize_append line ending, hopen ending hending⟩⟩

end Token

/-! ## 2. Lines -/

namespace Session

open Reader (Alike)
open Token (tokenize)

theorem isBlank_terminator (line : Text) {ending ending' : Text} (hending : ending ∈ terminators)
    (hending' : ending' ∈ terminators) : isBlank (line ++ ending) = isBlank (line ++ ending') := by
  rw [isBlank, isBlank]
  rcases Token.tokenize_terminator line with hsame | ⟨first, hopen⟩
  · rw [hsame ending hending, hsame ending' hending']
  · obtain ⟨_, hline, token, more, rfl, -⟩ := hopen ending hending
    obtain ⟨_, hline', token', more', rfl, -⟩ := hopen ending' hending'
    rw [hline, hline', List.isEmpty_eq_false_iff.mpr (by simp),
      List.isEmpty_eq_false_iff.mpr (by simp)]

theorem alike_read_terminator (line : Text) {ending ending' : Text}
    (hending : ending ∈ terminators) (hending' : ending' ∈ terminators) :
    Alike (read (line ++ ending)) (read (line ++ ending')) := by
  rw [read, read]
  rcases Token.tokenize_terminator line with hsame | ⟨first, hopen⟩
  · rw [hsame ending hending, hsame ending' hending']
    exact .same _
  · obtain ⟨later, hline, hlater⟩ := hopen ending hending
    obtain ⟨later', hline', hlater'⟩ := hopen ending' hending'
    rw [hline, hline']
    exact Reader.alike_run_append first hlater hlater'

/-! ## 3. The line without its terminator -/

theorem exists_terminator (line : Text) :
    ∃ ending ∈ terminators, dropTerminator line ++ ending = line := by
  rw [dropTerminator]
  split
  · next rest hreverse =>
    have hline := congrArg List.reverse hreverse
    rw [List.reverse_reverse] at hline
    exact ⟨['\r', '\n'], by decide, by simp [hline]⟩
  · next rest hreverse =>
    have hline := congrArg List.reverse hreverse
    rw [List.reverse_reverse] at hline
    exact ⟨['\n'], by decide, by simp [hline]⟩
  · exact ⟨[], by decide, List.append_nil line⟩

theorem isBlank_dropTerminator (line : Text) : isBlank (dropTerminator line) = isBlank line := by
  obtain ⟨ending, hending, hline⟩ := exists_terminator line
  have hblank := isBlank_terminator (dropTerminator line) (show [] ∈ terminators by decide) hending
  rwa [List.append_nil, hline] at hblank

theorem alike_read_dropTerminator (line : Text) :
    Alike (read (dropTerminator line)) (read line) := by
  obtain ⟨ending, hending, hline⟩ := exists_terminator line
  have halike :=
    alike_read_terminator (dropTerminator line) (show [] ∈ terminators by decide) hending
  rwa [List.append_nil, hline] at halike

end Session

end LispForms
