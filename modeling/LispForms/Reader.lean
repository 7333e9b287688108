import LispForms.Mapping
import LispForms.ReadError
import LispForms.Token.Scanner
import LispForms.Value.Atom

/-!
# Reader — from tokens to the first form

The reader takes one token after another and keeps the forms that are still open, innermost first.
A token opens a form, closes the innermost one, or is a form by itself; a finished form goes into
the open one around it, and the reading is over when there is none. No token is looked at ahead of
time, so a reading depends on nothing after its last token.

Every open form counts as one level of nesting. Where a form begins there must be a level left.
-/

namespace LispForms

inductive Purpose where
  | literal
  /-- It holds the metadata of the form after it. -/
  | metadata
  deriving DecidableEq, Repr

/-- A form that has begun and is not finished. -/
inductive OpenForm where
  /-- A list or vector; the position of its opening bracket and its items so far, newest first. -/
  | sequence (shape : Shape) (opening : Nat) (items : List Value)
  /-- A mapping; the position of its opening bracket, its entries so far, and a key that has no
  value yet. -/
  | mapping (purpose : Purpose) (opening : Nat) (entries : Mapping) (key : Option Value)
  | abbreviation (sigil : Sigil)
  | description (metadata : Mapping)
  deriving DecidableEq

def noteOf (name : Text) : Text := "in ".toList ++ name

/-- The note on errors inside the open form. Brackets leave none. -/
def OpenForm.note? : OpenForm → Option Text
  | .sequence .. => none
  | .mapping .literal .. => none
  | .mapping .metadata .. => some (noteOf metadataName)
  | .abbreviation sigil => some (noteOf sigil.name)
  | .description _ => some (noteOf metadataName)

/-- Where a reading stands, with the open forms innermost first. -/
inductive ReadState where
  /-- A form comes next, or the end of the innermost open one. -/
  | form (opened : List OpenForm)
  /-- The metadata mark has been read, and the opening of a mapping comes next. -/
  | brace (opened : List OpenForm)
  deriving DecidableEq

namespace ReadState

/-- The notes of the open forms, outermost first. -/
def notes : ReadState → List Text
  | .form opened => opened.reverse.filterMap OpenForm.note?
  | .brace opened => opened.reverse.filterMap OpenForm.note? ++ [noteOf metadataName]

def error (state : ReadState) (cause : Cause) : ReadError := ⟨state.notes, cause⟩

end ReadState

/-- What becomes of a reading when it is given a token. -/
inductive Progress where
  | more (state : ReadState)
  | done (value : Value)
  /-- The reading fails and leaves the token. -/
  | refuse (error : ReadError)
  /-- The reading fails and uses the token up. -/
  | reject (error : ReadError)
  deriving DecidableEq

/-- How a reading ended: its result, and the position of the next token not used. -/
structure Reading where
  result : Except ReadError Value
  position : Nat

namespace Reader

/-- Puts a finished form into the innermost open one. It finishes that one too if that is a mark's
or has been waiting for the form it describes. -/
def finish (value : Value) : List OpenForm → Progress
  | [] => .done value
  | .sequence shape opening items :: opened =>
    .more (.form (.sequence shape opening (value :: items) :: opened))
  | .mapping purpose opening entries none :: opened =>
    .more (.form (.mapping purpose opening entries (some value) :: opened))
  | .mapping purpose opening entries (some key) :: opened =>
    .more (.form (.mapping purpose opening (entries.insert key value) none :: opened))
  | .abbreviation sigil :: opened => finish (.call sigil.name [value]) opened
  | .description metadata :: opened => finish (.call metadataName [value, metadata.toValue]) opened

def enter (levels position : Nat) (token : Token) (opened : List OpenForm) : Progress :=
  -- The level is asked for before the token is looked at.
  if levels ≤ opened.length then .refuse ((ReadState.form opened).error (.tooDeep position))
  else
    match Token.kind token with
    | .opens shape => .more (.form (.sequence shape position [] :: opened))
    | .opensMapping => .more (.form (.mapping .literal position .empty none :: opened))
    | .abbreviates sigil => .more (.form (.abbreviation sigil :: opened))
    | .describes => .more (.brace opened)
    | .atom =>
      match Value.ofAtom? token with
      | some value => finish value opened
      | none => .reject ((ReadState.form opened).error (.malformedString position))

/-- Closes the innermost open form, a mapping. A key without a value keeps it from closing. -/
def closeMapping (purpose : Purpose) (opening : Nat) (entries : Mapping) (key : Option Value)
    (opened : List OpenForm) : Progress :=
  match key, purpose with
  | some key, purpose =>
    .refuse ((ReadState.form (.mapping purpose opening entries (some key) :: opened)).error
      (.keyWithoutValue opening))
  | none, .literal => finish entries.toValue opened
  | none, .metadata => .more (.form (.description entries :: opened))

def feed (levels position : Nat) (token : Token) : ReadState → Progress
  -- A closing bracket needs no level, so it is looked for first.
  | .form (.sequence shape opening items :: opened) =>
    if token = shape.bracket.closer then finish (.sequence shape items.reverse) opened
    else enter levels position token (.sequence shape opening items :: opened)
  | .form (.mapping purpose opening entries key :: opened) =>
    if token = Bracket.curly.closer then closeMapping purpose opening entries key opened
    else enter levels position token (.mapping purpose opening entries key :: opened)
  | .form opened => enter levels position token opened
  | .brace opened =>
    if Token.kind token = .opensMapping then
      .more (.form (.mapping .metadata position .empty none :: opened))
    else .reject ((ReadState.brace opened).error (.noMapping position token))

def outOfTokens (levels position : Nat) : ReadState → ReadError
  | .form (.sequence shape opening items :: opened) =>
    (ReadState.form (.sequence shape opening items :: opened)).error
      (.unclosed shape.bracket opening position)
  | .form (.mapping purpose opening entries key :: opened) =>
    (ReadState.form (.mapping purpose opening entries key :: opened)).error
      (.unclosed .curly opening position)
  -- Where no bracket is to be closed a form would have to begin, and needs a level.
  | .form opened =>
    if levels ≤ opened.length then (ReadState.form opened).error (.tooDeep position)
    else (ReadState.form opened).error (.noToken position)
  | .brace opened => (ReadState.brace opened).error (.noToken position)

/-- Reads on with the tokens, the first of which stands at the position. -/
def run (levels : Nat) : ReadState → Nat → List Token → Reading
  | state, position, [] => ⟨.error (outOfTokens levels position state), position⟩
  | state, position, token :: rest =>
    match feed levels position token state with
    | .more next => run levels next (position + 1) rest
    | .done value => ⟨.ok value, position + 1⟩
    | .refuse error => ⟨.error error, position⟩
    | .reject error => ⟨.error error, position + 1⟩

end Reader

/-- The first form of a text. What comes after it is ignored. -/
def read (text : Text) : Except ReadError Value :=
  (Reader.run maxDepth (.form []) 0 (Token.tokenize text)).result

end LispForms
