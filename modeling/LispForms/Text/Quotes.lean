import LispForms.Text.Basic

/-!
# Quotes — double quotes in a text, with backslash escapes

A backslash hides the character after it, so `\"` is not a quote and `\\` hides nothing further.
Two questions are asked of a text: do its quotes pair up, and is it exactly one string literal.
-/

namespace LispForms.Text

/-- Where a scan for quotes stands: inside a quotation or outside, and whether the character that
comes next is hidden by a backslash. -/
structure QuoteScan where
  inside : Bool
  hidden : Bool
  deriving DecidableEq

def QuoteScan.start : QuoteScan := ⟨false, false⟩

/-- An unhidden quote opens or closes a quotation; an unhidden backslash hides one character. -/
def QuoteScan.step (scan : QuoteScan) (c : Char) : QuoteScan :=
  if scan.hidden then { scan with hidden := false }
  else if c = '\\' then { scan with hidden := true }
  else if c = '"' then { scan with inside := !scan.inside }
  else scan

def quotesBalanced (text : Text) : Bool :=
  !(text.foldl QuoteScan.step QuoteScan.start).inside

/-- The first unhidden quote is the last character. The flag says whether the first character is
hidden by a backslash before it. -/
def endsAtQuote : Bool → Text → Bool
  | _, [] => false
  | true, _ :: rest => endsAtQuote false rest
  | false, c :: rest =>
    if c = '\\' then endsAtQuote true rest
    else if c = '"' then rest.isEmpty
    else endsAtQuote false rest

/-- The text is one string literal: it starts with a quote, and the next unhidden quote ends it. -/
def isStringLiteral : Text → Bool
  | [] => false
  | c :: rest => c = '"' && endsAtQuote false rest

def startsWithQuote : Text → Bool
  | [] => false
  | c :: _ => c = '"'

theorem startsWithQuote_of_isStringLiteral {text : Text} (h : isStringLiteral text = true) :
    startsWithQuote text = true := by
  cases text with
  | nil => exact h
  | cons c rest => simp_all [isStringLiteral, startsWithQuote]

end LispForms.Text
