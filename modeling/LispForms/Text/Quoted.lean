import LispForms.Text.Unprintable

/-!
# Quoted — text between double quotes, with escapes

The quoted form fits on one line and shows every character: quotes, backslashes and line breaks are
escaped, and what has no visible form is written as its code point.
-/

namespace LispForms.Text

/-- A character as the quoted form writes it: five short escapes and the quote's own; a character
that is not printable by its hexadecimal code point in braces; all else as it is. -/
def escaped (c : Char) : Text :=
  if c = '\x00' then ['\\', '0']
  else if c = '\t' then ['\\', 't']
  else if c = '\n' then ['\\', 'n']
  else if c = '\r' then ['\\', 'r']
  else if c = '"' then ['\\', '"']
  else if c = '\\' then ['\\', '\\']
  else if isPrintable c then [c]
  else ['\\', 'u', '\x7b'] ++ hexadecimal c.toNat ++ ['\x7d']

def quoted (text : Text) : Text := '"' :: text.flatMap escaped ++ ['"']

end LispForms.Text
