import LispForms.Token.Basic

/-!
# Scanner — cutting a text into tokens

The scanner reads one character at a time and never looks ahead. Its state holds what has been read
of the token in progress; a step gives out the tokens that the new character completes. Scanning
never fails: a string that does not close is a token all the same, and left to the reader to refuse.

* Separators and comments stand between tokens and are dropped. A comment runs from `;` to the end
  of its line.
* A bracket, a quote mark, `^` or `@` is a token by itself; `~` is one unless `@` follows it.
* A string runs to its closing quote. A backslash takes the next character with it, but not a line
  break: there the string ends before the backslash, as it does at the end of the text.
* Anything else runs up to a separator, a bracket, a quote of any kind or a semicolon.
-/

namespace LispForms.Token

/-- Tab, line feed, form feed, carriage return, space and comma separate tokens. Other spaces of
Unicode do not. -/
def isSeparator (c : Char) : Bool :=
  c = '\t' || c = '\n' || c = '\x0c' || c = '\r' || c = ' ' || c = ','

def isBracket (c : Char) : Bool :=
  c = '(' || c = ')' || c = '[' || c = ']' || c = '\x7b' || c = '\x7d'

def isTick (c : Char) : Bool := c = '\x27' || c = '\x60'

def isBare (c : Char) : Bool :=
  !(isSeparator c || isBracket c || isTick c || c = '"' || c = ';')

/-- The character is a token by itself wherever a token may start. -/
def standsAlone (c : Char) : Bool := isBracket c || isTick c || c = '^' || c = '@'

/-- What has been read of the token in progress, its newest character first. -/
inductive Scan where
  | gap
  | comment
  /-- After a `~` that `@` may still join. -/
  | tilde
  | bare (read : Text)
  | string (read : Text)
  /-- Inside a string, after a backslash that is not part of `read` yet. -/
  | escape (read : Text)
  deriving DecidableEq

namespace Scan

/-- The character stands where a token may start. -/
def start (c : Char) : List Token × Scan :=
  if isSeparator c then ([], .gap)
  else if c = ';' then ([], .comment)
  else if c = '~' then ([], .tilde)
  else if c = '"' then ([], .string [c])
  else if standsAlone c then ([[c]], .gap)
  else ([], .bare [c])

/-- The tokens that the character completes, and the state after it. -/
def step : Scan → Char → List Token × Scan
  | .gap, c => start c
  | .comment, c => ([], if c = '\n' then .gap else .comment)
  | .tilde, c => if c = '@' then ([['~', '@']], .gap) else (['~'] :: (start c).1, (start c).2)
  -- What ends a bare token may begin the next one.
  | .bare read, c =>
    if isBare c then ([], .bare (c :: read)) else (read.reverse :: (start c).1, (start c).2)
  | .string read, c =>
    if c = '"' then ([(c :: read).reverse], .gap)
    else if c = '\\' then ([], .escape read)
    else ([], .string (c :: read))
  -- The line break ends the string before the backslash, which is a token by itself.
  | .escape read, c =>
    if c = '\n' then ([read.reverse, ['\\']], .gap) else ([], .string (c :: '\\' :: read))

def finish : Scan → List Token
  | .gap => []
  | .comment => []
  | .tilde => [['~']]
  | .bare read => [read.reverse]
  | .string read => [read.reverse]
  | .escape read => [read.reverse, ['\\']]

def tokens : Scan → Text → List Token
  | scan, [] => scan.finish
  | scan, c :: rest =>
    let after := scan.step c
    after.1 ++ tokens after.2 rest

end Scan

def tokenize (text : Text) : List Token := Scan.gap.tokens text

end LispForms.Token
