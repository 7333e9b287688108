import LispForms.Session.Command

/-!
# The command line

`list`, `draw` and `talk` run the three commands on the standard input.
-/

namespace LispForms.Session

def commandNamed? : String → Option (Bytes → Report)
  | "list" => some listing
  | "draw" => some drawing
  | "talk" => some dialogue
  | _ => none

end LispForms.Session

open LispForms.Session in
/-- Runs the command that the only argument names. -/
def main (arguments : List String) : IO UInt32 := do
  match arguments with
  | [word] =>
    match commandNamed? word with
    | some command =>
      let input ← (← IO.getStdin).readBinToEnd
      let report := command input.toList
      IO.print (String.ofList report.stdout)
      IO.eprint (String.ofList report.stderr)
      return UInt32.ofNat report.exit
    | none =>
      IO.eprintln "the commands are list, draw and talk"
      return 2
  | _ =>
    IO.eprintln "one command is expected: list, draw or talk"
    return 2
