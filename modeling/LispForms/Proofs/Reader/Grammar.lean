import LispForms.Mapping
import LispForms.Value.Atom

/-!
# Grammar — which tokens make which form

The grammar of forms, apart from any way to read them.  A form is derived from a segment of tokens
with a number of levels: a bracket or a mark needs a level more than what stands inside it, and
metadata stands at the level of the form that it describes.  Inside brackets no form starts with
the token that would close them; everywhere else a closing bracket is a symbol.
-/

namespace LispForms

def Bracket.opener (bracket : Bracket) : Token := [bracket.opening]

def Bracket.enclose (bracket : Bracket) (tokens : List Token) : List Token :=
  bracket.opener :: (tokens ++ [bracket.closer])

theorem Bracket.enclose_append (bracket : Bracket) (tokens rest : List Token) :
    bracket.enclose tokens ++ rest = bracket.opener :: (tokens ++ bracket.closer :: rest) := by
  simp [enclose]

theorem Bracket.length_enclose (bracket : Bracket) (tokens : List Token) :
    (bracket.enclose tokens).length = tokens.length + 2 := by
  simp [enclose]

def Sigil.token : Sigil → Token
  | .quote => ['\x27']
  | .quasiquote => ['\x60']
  | .unquote => ['~']
  | .spliceUnquote => ['~', '@']
  | .deref => ['@']

def metadataMark : Token := ['^']

/-- The tokens that never are a form by themselves: opening brackets and marks. -/
def Token.announcers : List Token :=
  [Bracket.opener .round, Bracket.opener .square, Bracket.opener .curly, Sigil.token .quote,
    Sigil.token .quasiquote, Sigil.token .unquote, Sigil.token .spliceUnquote, Sigil.token .deref,
    metadataMark]

namespace Reader

/-- A form among others: its tokens and what they denote. -/
structure Piece where
  segment : List Token
  value : Value

def segments (pieces : List Piece) : List Token := pieces.flatMap Piece.segment

def values (pieces : List Piece) : List Value := pieces.map Piece.value

/-- The value that a segment of tokens denotes, given the levels of nesting there are for it. -/
inductive Derives : Nat → List Token → Value → Prop
  | sequence {levels : Nat} {pieces : List Piece} (shape : Shape)
      (hpieces : ∀ piece ∈ pieces, Derives levels piece.segment piece.value)
      (hcloser : ∀ piece ∈ pieces, piece.segment.head? ≠ some shape.bracket.closer) :
      Derives (levels + 1) (shape.bracket.enclose (segments pieces))
        (.sequence shape (values pieces))
  | mapping {levels : Nat} {pieces : List Piece} {pairs : List (Value × Value)}
      (hpieces : ∀ piece ∈ pieces, Derives levels piece.segment piece.value)
      (hcloser : ∀ piece ∈ pieces, piece.segment.head? ≠ some Bracket.curly.closer)
      (hpairs : values pieces = Value.keysAndValues pairs) :
      Derives (levels + 1) (Bracket.curly.enclose (segments pieces)) (Mapping.ofList pairs).toValue
  | abbreviation {levels : Nat} {segment : List Token} {value : Value} (sigil : Sigil)
      (hform : Derives levels segment value) :
      Derives (levels + 1) (sigil.token :: segment) (.call sigil.name [value])
  /-- The metadata is written before the form and comes after it in the list. -/
  | description {levels : Nat} {pieces : List Piece} {pairs : List (Value × Value)}
      {segment : List Token} {value : Value}
      (hpieces : ∀ piece ∈ pieces, Derives levels piece.segment piece.value)
      (hcloser : ∀ piece ∈ pieces, piece.segment.head? ≠ some Bracket.curly.closer)
      (hpairs : values pieces = Value.keysAndValues pairs) (hform : Derives levels segment value) :
      Derives (levels + 1) (metadataMark :: (Bracket.curly.enclose (segments pieces) ++ segment))
        (.call metadataName [value, (Mapping.ofList pairs).toValue])
  | number {levels : Nat} {token : Token} {n : Int64} (htoken : token ∉ Token.announcers)
      (hnumber : Numeral.read? token = some n) : Derives (levels + 1) [token] (.number n)
  | string {levels : Nat} {token : Token} (htoken : token ∉ Token.announcers)
      (hnumber : Numeral.read? token = none) (hliteral : Text.isStringLiteral token = true) :
      Derives (levels + 1) [token] (.string token)
  | symbol {levels : Nat} {token : Token} (htoken : token ∉ Token.announcers)
      (hnumber : Numeral.read? token = none) (hquote : Text.startsWithQuote token = false) :
      Derives (levels + 1) [token] (.symbol token)

namespace Derives

variable {levels : Nat} {segment : List Token} {value : Value}

theorem levels_pos (h : Derives levels segment value) : 0 < levels := by
  cases h <;> exact Nat.succ_pos _

theorem ne_nil (h : Derives levels segment value) : segment ≠ [] := by
  cases h <;> simp [Bracket.enclose]

theorem head?_append (h : Derives levels segment value) (rest : List Token) :
    (segment ++ rest).head? = segment.head? := by
  cases segment with
  | nil => exact absurd rfl h.ne_nil
  | cons => rfl

theorem mono (h : Derives levels segment value) {more : Nat} (hmore : levels ≤ more) :
    Derives more segment value := by
  induction h generalizing more <;>
    obtain ⟨more, rfl⟩ := Nat.exists_eq_add_of_lt (Nat.lt_of_succ_le hmore)
  case sequence shape _ hcloser ih =>
    exact .sequence shape (fun piece hpiece => ih piece hpiece (by omega)) hcloser
  case mapping hcloser hpairs ih =>
    exact .mapping (fun piece hpiece => ih piece hpiece (by omega)) hcloser hpairs
  case abbreviation sigil _ ih => exact .abbreviation sigil (ih (by omega))
  case description hcloser hpairs _ ih ihform =>
    exact .description (fun piece hpiece => ih piece hpiece (by omega)) hcloser hpairs
      (ihform (by omega))
  case number htoken hnumber => exact .number htoken hnumber
  case string htoken hnumber hliteral => exact .string htoken hnumber hliteral
  case symbol htoken hnumber hquote => exact .symbol htoken hnumber hquote

theorem atom {token : Token} (htoken : token ∉ Token.announcers)
    (h : Value.ofAtom? token = some value) : Derives (levels + 1) [token] value := by
  unfold Value.ofAtom? at h
  split at h
  · next n hnumber =>
    cases h
    exact .number htoken hnumber
  · next hnumber =>
    split at h
    · split at h
      · next hliteral =>
        cases h
        exact .string htoken hnumber hliteral
      · cases h
    · next hquote =>
      cases h
      exact .symbol htoken hnumber (Bool.not_eq_true _ ▸ hquote)

/-- Only a token by itself denotes a symbol, and then its own text. -/
theorem segment_of_symbol {name : Text} (h : Derives levels segment (.symbol name)) :
    segment = [name] := by
  generalize hvalue : Value.symbol name = v at h
  cases h with
  | sequence shape => cases shape <;> cases hvalue
  | mapping => cases hvalue
  | abbreviation => cases hvalue
  | description => cases hvalue
  | number => cases hvalue
  | string => cases hvalue
  | symbol =>
    cases hvalue
    rfl

end Derives

end Reader

/-! ## 1. The kinds of tokens -/

namespace Token

variable {token : Token}

/-- What starts with a quote is no announcer. -/
theorem notMem_announcers_of_startsWithQuote (h : Text.startsWithQuote token = true) :
    token ∉ announcers := by
  have hannouncers : ∀ t ∈ announcers, Text.startsWithQuote t = false := by decide
  intro hmem
  rw [hannouncers token hmem] at h
  cases h

theorem kind_eq_atom_iff : token.kind = .atom ↔ token ∉ announcers := by
  constructor
  · have hannouncers : ∀ t ∈ announcers, t.kind ≠ .atom := by decide
    exact fun h hmem => hannouncers token hmem h
  · intro h
    unfold kind
    split <;> first | rfl | exact absurd (by decide) h

theorem eq_opener_of_opens {shape : Shape} (h : token.kind = .opens shape) :
    token = shape.bracket.opener := by
  unfold kind at h
  split at h <;> cases h <;> rfl

theorem eq_opener_of_opensMapping (h : token.kind = .opensMapping) :
    token = Bracket.curly.opener := by
  unfold kind at h
  split at h <;> cases h
  rfl

theorem eq_token_of_abbreviates {sigil : Sigil} (h : token.kind = .abbreviates sigil) :
    token = sigil.token := by
  unfold kind at h
  split at h <;> cases h <;> rfl

theorem eq_metadataMark_of_describes (h : token.kind = .describes) : token = metadataMark := by
  unfold kind at h
  split at h <;> cases h
  rfl

theorem kind_opener (shape : Shape) : kind shape.bracket.opener = .opens shape := by
  cases shape <;> rfl

theorem kind_token (sigil : Sigil) : kind sigil.token = .abbreviates sigil := by
  cases sigil <;> rfl

end Token

end LispForms
