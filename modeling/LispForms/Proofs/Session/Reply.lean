import LispForms.Cursor
import LispForms.Proofs.Value.Distinct
import LispForms.Session.Reply

/-!
# Reply — the reply tells what came of a text

No two readings with different results have the same reply: different values are written
differently, and none is written so that it could be taken for an error.
-/

namespace LispForms

/-- The value has been read from tokens of some text, anywhere among them and at any depth. -/
def Value.IsRead (v : Value) : Prop :=
  ∃ text position depth after,
    (Cursor.mk (Token.tokenize text) position depth).readForm = (.ok v, after)

theorem Value.IsRead.allReadable {v : Value} (h : v.IsRead) : v.AllReadable := by
  rcases h with ⟨text, position, depth, after, hread⟩
  exact allReadable_of_readForm hread

/-! ## 1. Replies to what is read and to what is not -/

namespace Session

theorem reply_of_ok {text : Text} {v : Value} (h : read text = .ok v) : reply text = v.display := by
  rw [reply, evaluated, h]
  rfl

theorem reply_of_error {text : Text} {error : ReadError} (h : read text = .error error) :
    reply text = error.message := by
  rw [reply, evaluated, h]

theorem isName_eof : Token.IsName "EOF:".toList := by decide

theorem message_eq (error : ReadError) :
    error.message = "EOF:".toList ++ (' ' :: error.detail) := by
  have hsplit : "EOF: ".toList = "EOF:".toList ++ [' '] := by decide
  calc error.message = ("EOF:".toList ++ [' ']) ++ error.detail :=
        congrArg (· ++ error.detail) hsplit
    _ = "EOF:".toList ++ (' ' :: error.detail) := List.append_assoc _ _ _

/-- A text that goes on after the first word of an error message is no written form: it starts with
a token, and no atom is longer than that. -/
theorem display_ne_eof {v : Value} (hv : v.AllReadable) (rest : Text) :
    v.display ≠ "EOF:".toList ++ (' ' :: rest) := by
  intro h
  have hdelimiter : Token.AtDelimiter (' ' :: rest) := Token.atDelimiter_cons.2 (by decide)
  have htokens : v.tokens = "EOF:".toList :: Token.tokenize (' ' :: rest) := by
    calc v.tokens = Token.tokenize v.display := (Value.tokenize_display hv.wellSpelt).symm
      _ = Token.tokenize ("EOF:".toList ++ (' ' :: rest)) := congrArg Token.tokenize h
      _ = "EOF:".toList :: Token.tokenize (' ' :: rest) := Token.tokenize_name isName_eof hdelimiter
  have hhead := congrArg List.head? htokens
  cases hbracket : v.bracket? with
  | none =>
    rw [Value.tokens_of_atom hbracket] at hhead
    have hdisplay : v.display = "EOF:".toList := Option.some.inj hhead
    have hnil : ' ' :: rest = [] := List.append_right_eq_self.mp (h.symm.trans hdisplay)
    cases hnil
  | some bracket =>
    rw [Value.tokens_of_bracket? hbracket] at hhead
    have hopener : bracket.opener = "EOF:".toList := Option.some.inj hhead
    cases bracket <;> exact absurd hopener (by decide)

theorem not_eof_prefix_display {v : Value} (hv : v.AllReadable) :
    ¬ "EOF: ".toList <+: v.display := by
  intro h
  rcases h with ⟨rest, hrest⟩
  exact display_ne_eof hv rest hrest.symm

theorem display_ne_message {v : Value} (hv : v.AllReadable) (error : ReadError) :
    v.display ≠ error.message := by
  rw [message_eq]
  exact display_ne_eof hv error.detail

theorem message_eq_iff {error error' : ReadError} :
    error.message = error'.message ↔ error.detail = error'.detail := by
  show "EOF: ".toList ++ error.detail = "EOF: ".toList ++ error'.detail ↔ _
  exact List.append_right_inj _

/-! ## 2. What a reply tells -/

theorem reply_eq_iff_of_ok {s t : Text} {v w : Value} (hs : read s = .ok v)
    (ht : read t = .ok w) : reply s = reply t ↔ v = w := by
  rw [reply_of_ok hs, reply_of_ok ht]
  exact ⟨Value.display_injective (allReadable_of_read hs) (allReadable_of_read ht),
    congrArg Value.display⟩

theorem reply_ne_of_ok_of_error {s t : Text} {v : Value} {error : ReadError}
    (hs : read s = .ok v) (ht : read t = .error error) : reply s ≠ reply t := by
  rw [reply_of_ok hs, reply_of_error ht]
  exact display_ne_message (allReadable_of_read hs) error

theorem reply_eq_iff_of_error {s t : Text} {error error' : ReadError} (hs : read s = .error error)
    (ht : read t = .error error') : reply s = reply t ↔ error.detail = error'.detail := by
  rw [reply_of_error hs, reply_of_error ht]
  exact message_eq_iff

/-- Two texts have the same reply exactly if both are read, as one value, or neither is read, for
the same reason.  For values that are read are written differently if they differ, and never like an
error; so no two different keys that are read share an entry of a mapping. -/
theorem reply_eq_iff :
    (∀ s t : Text, reply s = reply t ↔
      (∃ v, read s = .ok v ∧ read t = .ok v) ∨
        ∃ error error', read s = .error error ∧ read t = .error error' ∧
          error.detail = error'.detail) ∧
    (∀ (s t : Text) (v w : Value), read s = .ok v → read t = .ok w →
      v.display = w.display → v = w) ∧
    (∀ (s : Text) (v : Value), read s = .ok v → ¬ "EOF: ".toList <+: reply s) ∧
    ∀ (m : Mapping) (key key' value : Value), key.IsRead → key'.IsRead →
      (m.insert key value).get? key' = if key' = key then some value else m.get? key' := by
  refine ⟨fun s t => ?_, fun s t v w hs ht h => ?_, fun s v hs => ?_,
    fun m key key' value hkey hkey' => ?_⟩
  · cases hs : read s with
    | ok v =>
      cases ht : read t with
      | ok w =>
        rw [reply_eq_iff_of_ok hs ht]
        simp [eq_comm]
      | error error => simp [reply_ne_of_ok_of_error hs ht]
    | error error =>
      cases ht : read t with
      | ok w => simp [(reply_ne_of_ok_of_error ht hs).symm]
      | error error' =>
        rw [reply_eq_iff_of_error hs ht]
        simp
  · exact Value.display_injective (allReadable_of_read hs) (allReadable_of_read ht) h
  · rw [reply_of_ok hs]
    exact not_eof_prefix_display (allReadable_of_read hs)
  · -- The two keys are written alike only if they are one.
    have hsame : key'.display = key.display ↔ key' = key :=
      ⟨Value.display_injective hkey'.allReadable hkey.allReadable, congrArg Value.display⟩
    rw [Mapping.get?_insert]
    simp only [hsame]

/-- `')` and `(quote)` are read as different lists, which are different keys; neither text has an
error for a reply. -/
theorem reply_quoted_closer :
    read ['\x27', ')'] = .ok (.call Sigil.quote.name [.symbol [')']]) ∧
      read "(quote)".toList = .ok (.call Sigil.quote.name []) ∧
      ¬ "EOF: ".toList <+: reply ['\x27', ')'] ∧
      (Mapping.empty.insert (.call Sigil.quote.name [.symbol [')']]) (.number 1)).get?
        (.call Sigil.quote.name []) = none := by
  have hmarked : read ['\x27', ')'] = .ok (.call Sigil.quote.name [.symbol [')']]) := by rfl
  have hempty : read "(quote)".toList = .ok (.call Sigil.quote.name []) := by rfl
  have hkey : Value.IsRead (.call Sigil.quote.name [.symbol [')']]) :=
    ⟨['\x27', ')'], 0, 0, _, by rfl⟩
  have hkey' : Value.IsRead (.call Sigil.quote.name []) := ⟨"(quote)".toList, 0, 0, _, by rfl⟩
  have hne : Value.call Sigil.quote.name [] ≠ .call Sigil.quote.name [.symbol [')']] :=
    fun h => nomatch h
  have hget := reply_eq_iff.2.2.2 .empty _ _ (.number 1) hkey hkey'
  rw [if_neg hne] at hget
  exact ⟨hmarked, hempty, reply_eq_iff.2.2.1 _ _ hmarked, hget⟩

end Session

end LispForms
