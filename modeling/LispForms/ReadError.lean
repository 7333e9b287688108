import LispForms.Text.Quoted
import LispForms.Token.Basic

/-!
# Read errors — why a text is not a form

An error is a cause and the notes added on the way out, outermost first. Positions count tokens
from zero. The reader does not grade its causes: each of them means that the input ended, or went
wrong, before one whole form had been read.
-/

namespace LispForms

def maxDepth : Nat := 512

inductive Cause where
  | noToken (position : Nat)
  /-- The tokens ran out before the bracket at `start` was closed. -/
  | unclosed (bracket : Bracket) (start position : Nat)
  /-- The mapping that opened at `start` was closed after a key. -/
  | keyWithoutValue (start : Nat)
  /-- The metadata mark was followed by something else than a mapping. -/
  | noMapping (position : Nat) (found : Token)
  | tooDeep (position : Nat)
  | malformedString (position : Nat)
  | stated (detail : Text)
  deriving DecidableEq, Repr

def Cause.detail : Cause → Text
  | .noToken position => "no token at position ".toList ++ Text.decimal position
  | .unclosed bracket start position =>
    "expected '".toList ++ bracket.closer ++ "' to close the ".toList
      ++ (if bracket = .curly then "mapping" else "form").toList
      ++ " at token ".toList ++ Text.decimal start
      ++ ": no token at position ".toList ++ Text.decimal position
  | .keyWithoutValue start =>
    "mapping at token ".toList ++ Text.decimal start ++ " has a key without a value".toList
  | .noMapping position found =>
    "expected '\x7b' at token ".toList ++ Text.decimal position ++ ", found ".toList
      ++ Text.quoted found
  | .tooDeep position =>
    "form nested too deeply at token ".toList ++ Text.decimal position
      ++ " (limit ".toList ++ Text.decimal maxDepth ++ [')']
  | .malformedString position =>
    "unterminated or malformed string at token ".toList ++ Text.decimal position
  | .stated detail => detail

/-- A cause, with notes on what was being read, outermost first. -/
structure ReadError where
  notes : List Text
  cause : Cause
  deriving DecidableEq, Repr

namespace ReadError

def ofDetail (detail : Text) : ReadError := ⟨[], .stated detail⟩

def annotate (error : ReadError) (note : Text) : ReadError :=
  { error with notes := note :: error.notes }

def detail (error : ReadError) : Text :=
  error.notes.foldr (fun note rest => note ++ [':', ' '] ++ rest) error.cause.detail

def message (error : ReadError) : Text := "EOF: ".toList ++ error.detail

@[simp] theorem detail_ofDetail (detail : Text) : (ofDetail detail).detail = detail := rfl

@[simp] theorem detail_annotate (error : ReadError) (note : Text) :
    (error.annotate note).detail = note ++ [':', ' '] ++ error.detail := rfl

end ReadError

end LispForms
