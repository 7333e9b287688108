import LispForms.Graph.Dot
import LispForms.Session.Fault
import LispForms.Session.Line
import LispForms.Session.Reply
import LispForms.Value.Inspect

/-!
# Commands — whole programs from input to output

Three commands read forms from their input: one lists them in both of their forms, one draws the
first of them, and one replies to entry after entry. An entry is a line, or as many lines as it
takes until no string is left open.
-/

namespace LispForms.Session

structure Report where
  exit : Nat
  stdout : Text
  stderr : Text
  deriving DecidableEq, Repr

namespace Report

def success : Report := ⟨0, [], []⟩

def failure (reason : Text) : Report := ⟨1, [], "Error: ".toList ++ reason ++ ['\n']⟩

/-- The report with more lines before its own. -/
def after (report : Report) (stdout stderr : Text) : Report :=
  { report with stdout := stdout ++ report.stdout, stderr := stderr ++ report.stderr }

end Report

/-- Lists the first form of each line: written on the standard output, inspected on the standard
error. The first line that does not read ends the listing. -/
def listLines : List Bytes → Report
  | [] => .success
  | line :: rest =>
    match Text.decode? line with
    | none => .failure Fault.notUtf8.inspect
    | some text =>
      let entry := dropTerminator text
      if isBlank entry then listLines rest
      else
        match read entry with
        | .ok value => (listLines rest).after (value.display ++ ['\n']) (value.inspect ++ ['\n'])
        | .error error => .failure (Fault.unreadable error).inspect

def listing (input : Bytes) : Report := listLines (lines input)

def drawing (input : Bytes) : Report :=
  match Text.decode? input with
  | none => .failure Fault.notUtf8.inspect
  | some text =>
    match read text with
    | .ok value => ⟨0, Graph.dot value, []⟩
    | .error error => .failure (Fault.unreadable error).inspect

/-- Gathers lines into entries, given the lines of an entry that is not complete yet: the entries,
without the terminators of their last lines, and what is left unfinished at the end. -/
def gather (unfinished : Text) : List Text → List Text × Text
  | [] => ([], unfinished)
  | line :: rest =>
    let entry := unfinished ++ dropTerminator line
    if isComplete entry then
      let later := gather [] rest
      (entry :: later.1, later.2)
    -- The line break is part of the string that is open.
    else gather (unfinished ++ line) rest

def replies (entries : List Text) : Text :=
  (entries.filter fun entry => !isBlank entry).flatMap fun entry => reply entry ++ ['\n']

/-- Replies to the entries of the input. An entry that the input leaves unfinished gets none. -/
def dialogue (input : Bytes) : Report :=
  let decoded := decodeLines (lines input)
  let stdout := replies (gather [] decoded.1).1
  if decoded.2 then Report.success.after stdout []
  else (Report.failure ("Io(".toList ++ Fault.notUtf8.inspect ++ [')'])).after stdout []

end LispForms.Session
