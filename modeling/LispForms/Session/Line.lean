import LispForms.Text.Utf8

/-!
# Lines — input cut at line feeds

A line keeps the line feed that ends it; the last line may have none. Lines are cut before they are
decoded, and each is decoded by itself.
-/

namespace LispForms.Session

def lines : Bytes → List Bytes
  | [] => []
  | byte :: rest =>
    if byte = 10 then [byte] :: lines rest
    else
      match lines rest with
      | [] => [[byte]]
      | line :: more => (byte :: line) :: more

/-- The texts of the lines before the first that is not UTF-8, and whether all of them are. -/
def decodeLines : List Bytes → List Text × Bool
  | [] => ([], true)
  | line :: rest =>
    match Text.decode? line with
    | none => ([], false)
    | some text =>
      let later := decodeLines rest
      (text :: later.1, later.2)

/-- The line without its line feed, and without a carriage return before that. -/
def dropTerminator (line : Text) : Text :=
  match line.reverse with
  | '\n' :: '\r' :: rest => rest.reverse
  | '\n' :: rest => rest.reverse
  | _ => line

end LispForms.Session
