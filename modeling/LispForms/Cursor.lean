import LispForms.Reader

/-!
# Cursor — forms read one after another from a row of tokens

A cursor stands at a position in a row of tokens and keeps a count of the levels of nesting that
have been entered. Reading a form leaves the count as it was, and leaves the position after the
form or where the reading failed.
-/

namespace LispForms

structure Cursor where
  tokens : List Token
  position : Nat
  depth : Nat
  deriving DecidableEq

namespace Cursor

def ofTokens (tokens : List Token) : Cursor := ⟨tokens, 0, 0⟩

def ofText (text : Text) : Cursor := ofTokens (Token.tokenize text)

def remaining (cursor : Cursor) : Nat := cursor.tokens.length - cursor.position

def isEmpty (cursor : Cursor) : Bool := cursor.remaining = 0

def peek (cursor : Cursor) : Except ReadError Token :=
  match cursor.tokens[cursor.position]? with
  | some token => .ok token
  | none => .error ⟨[], .noToken cursor.position⟩

/-- The cursor one position further, whether a token stands here or not. -/
def advance (cursor : Cursor) : Cursor := { cursor with position := cursor.position + 1 }

/-- The token at the position, and the cursor after it. Without a token the cursor stays. -/
def next (cursor : Cursor) : Except ReadError Token × Cursor :=
  match cursor.peek with
  | .ok token => (.ok token, cursor.advance)
  | .error error => (.error error, cursor)

def descend (cursor : Cursor) : Except ReadError Cursor :=
  if maxDepth ≤ cursor.depth then .error ⟨[], .tooDeep cursor.position⟩
  else .ok { cursor with depth := cursor.depth + 1 }

/-- Leaves a level of nesting; outside of all levels nothing happens. -/
def ascend (cursor : Cursor) : Cursor := { cursor with depth := cursor.depth - 1 }

/-- Reads the form at the position, with the levels that are left. -/
def readForm (cursor : Cursor) : Except ReadError Value × Cursor :=
  let reading := Reader.run (maxDepth - cursor.depth) (.form []) cursor.position
    (cursor.tokens.drop cursor.position)
  (reading.result, { cursor with position := reading.position })

inductive Call where
  | peek
  | next
  | advance
  | descend
  | ascend
  | readForm
  | remaining
  | isEmpty
  deriving DecidableEq, Repr

inductive Answer where
  | nothing
  | token (token : Token)
  | value (value : Value)
  | count (n : Nat)
  | truth (b : Bool)
  | failure (error : ReadError)
  deriving DecidableEq

def perform (cursor : Cursor) : Call → Answer × Cursor
  | .peek =>
    match cursor.peek with
    | .ok token => (.token token, cursor)
    | .error error => (.failure error, cursor)
  | .next =>
    match cursor.next with
    | (.ok token, after) => (.token token, after)
    | (.error error, after) => (.failure error, after)
  | .advance => (.nothing, cursor.advance)
  | .descend =>
    match cursor.descend with
    | .ok after => (.nothing, after)
    | .error error => (.failure error, cursor)
  | .ascend => (.nothing, cursor.ascend)
  | .readForm =>
    match cursor.readForm with
    | (.ok value, after) => (.value value, after)
    | (.error error, after) => (.failure error, after)
  | .remaining => (.count cursor.remaining, cursor)
  | .isEmpty => (.truth cursor.isEmpty, cursor)

/-- The same call several times over, up to the first that fails: the last answer, if there was a
call at all, and the cursor after it. -/
def repeated (cursor : Cursor) (call : Call) : Nat → Answer × Cursor
  | 0 => (.nothing, cursor)
  | n + 1 =>
    match cursor.perform call with
    | (.failure error, after) => (.failure error, after)
    | (answer, after) => if n = 0 then (answer, after) else after.repeated call n

/-- Reads forms until no token is left or a reading fails: each result, with the cursor after it.
The number bounds the readings; each takes a token at least, so that as many as there are tokens
are enough. -/
def readUpTo (cursor : Cursor) : Nat → List (Except ReadError Value × Cursor)
  | 0 => []
  | bound + 1 =>
    if cursor.isEmpty then []
    else
      match cursor.readForm with
      | (.ok value, after) => (.ok value, after) :: after.readUpTo bound
      | (.error error, after) => [(.error error, after)]

def readAll (cursor : Cursor) : List (Except ReadError Value × Cursor) :=
  cursor.readUpTo cursor.remaining

end Cursor

end LispForms
