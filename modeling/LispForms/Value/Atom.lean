import LispForms.Text.Quotes
import LispForms.Value.Basic

/-!
# Atoms — the value of a single token

A numeral is a number if it fits in a word. What starts with a double quote has to be one whole
string literal. Every other token is a symbol, so nothing but a malformed string is refused.
-/

namespace LispForms.Value

def ofAtom? (token : Token) : Option Value :=
  match Numeral.read? token with
  | some n => some (.number n)
  | none =>
    if Text.startsWithQuote token then
      if Text.isStringLiteral token then some (.string token) else none
    else some (.symbol token)

end LispForms.Value
