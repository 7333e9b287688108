/-!
# Text — character sequences and the few ways this library joins them

All reading and printing here works on lists of characters, so that every scan is a recursion on
its input. Strings of the standard library appear only where text enters or leaves the program.
-/

namespace LispForms

abbrev Text := List Char

abbrev Bytes := List UInt8

namespace Text

/-- The items one after another, with `gap` between any two neighbours. -/
def joined (gap : Text) : List Text → Text
  | [] => []
  | [item] => item
  | item :: next :: rest => item ++ gap ++ joined gap (next :: rest)

def spaced : List Text → Text := joined [' ']

def decimal (n : Nat) : Text := Nat.toDigits 10 n

def hexadecimal (n : Nat) : Text := Nat.toDigits 16 n

@[simp] theorem joined_nil (gap : Text) : joined gap [] = [] := rfl

@[simp] theorem joined_singleton (gap item : Text) : joined gap [item] = item := rfl

/-- Every item after the first brings one gap with it. -/
theorem joined_cons (gap item : Text) (items : List Text) :
    joined gap (item :: items) = item ++ items.flatMap (gap ++ ·) := by
  induction items generalizing item with
  | nil => simp [joined]
  | cons next rest ih => simp [joined, ih, List.append_assoc]

end Text

end LispForms
