import LispForms.Reader

/-!
# Reply — what is said to a text

A text is read, evaluated and written back; if it does not read, the error is the reply. A text is
blank if there is nothing in it to read, and complete if it does not end inside a string.
-/

namespace LispForms.Session

def evaluated (text : Text) : Except ReadError Text :=
  match read text with
  | .ok value => .ok value.eval.display
  | .error error => .error error

def reply (text : Text) : Text :=
  match evaluated text with
  | .ok written => written
  | .error error => error.message

/-- There is nothing to read: only separators and comments. -/
def isBlank (text : Text) : Bool := (Token.tokenize text).isEmpty

/-- The text does not end inside a string. Only its last token can be a string that is open, and a
quote in a comment opens none. -/
def isComplete (text : Text) : Bool :=
  match (Token.tokenize text).getLast? with
  | some token => !Text.startsWithQuote token || Text.isStringLiteral token
  | none => true

end LispForms.Session
