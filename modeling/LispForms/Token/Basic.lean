import LispForms.Text.Basic

/-!
# Tokens — the words of the notation and what each announces

A token is a piece of text. Eleven spellings have a meaning of their own: six brackets, five
abbreviations and the metadata mark. Every other token is an atom; a closing bracket is one too
wherever it closes nothing.
-/

namespace LispForms

abbrev Token := Text

inductive Bracket where
  | round
  | square
  | curly
  deriving DecidableEq, Repr

def Bracket.opening : Bracket → Char
  | .round => '('
  | .square => '['
  | .curly => '\x7b'

def Bracket.closing : Bracket → Char
  | .round => ')'
  | .square => ']'
  | .curly => '\x7d'

def Bracket.closer (bracket : Bracket) : Token := [bracket.closing]

inductive Shape where
  | list
  | vector
  deriving DecidableEq, Repr

def Shape.bracket : Shape → Bracket
  | .list => .round
  | .vector => .square

/-- The marks that abbreviate a two-element list of a name and the form after the mark. -/
inductive Sigil where
  | quote
  | quasiquote
  | unquote
  | spliceUnquote
  | deref
  deriving DecidableEq, Repr

def Sigil.name : Sigil → Text
  | .quote => "quote".toList
  | .quasiquote => "quasiquote".toList
  | .unquote => "unquote".toList
  | .spliceUnquote => "splice-unquote".toList
  | .deref => "deref".toList

def metadataName : Text := "with-meta".toList

/-- What a token announces where a form is expected. -/
inductive Kind where
  | opens (shape : Shape)
  | opensMapping
  /-- A mark; the form it applies to follows. -/
  | abbreviates (sigil : Sigil)
  /-- The metadata mark; a mapping and then the form it describes follow. -/
  | describes
  | atom
  deriving DecidableEq, Repr

namespace Token

def kind : Token → Kind
  | ['('] => .opens .list
  | ['['] => .opens .vector
  | ['\x7b'] => .opensMapping
  | ['\x27'] => .abbreviates .quote
  | ['\x60'] => .abbreviates .quasiquote
  | ['~'] => .abbreviates .unquote
  | ['~', '@'] => .abbreviates .spliceUnquote
  | ['@'] => .abbreviates .deref
  | ['^'] => .describes
  -- A closing bracket too: the reader knows whether there is anything for it to close.
  | _ => .atom

end Token

end LispForms
