import LispForms.Proofs.RoundTrip
import LispForms.Proofs.Session.Reply

/-!
# Settled — replies to replies

A reply is a text and can be replied to.  What is read from a written form is canonical, as there
are no marks in it, so its own written form stays; and what is read from an error is the symbol that
the message starts with.  Replies to replies therefore come to rest after three of them, and after
two if the text and the first reply to it are read.

Main statement: `reply_settles`.
-/

namespace LispForms.Session

variable {s : Text} {v w : Value}

/-! ## 1. What is read from an error -/

theorem tokenize_message (error : ReadError) :
    Token.tokenize error.message = "EOF:".toList :: Token.tokenize (' ' :: error.detail) := by
  rw [message_eq]
  exact Token.tokenize_name isName_eof (Token.atDelimiter_cons.2 (by decide))

/-- The first word of a message is a form, and what comes behind it is ignored. -/
theorem read_message (error : ReadError) :
    read error.message = .ok (.symbol "EOF:".toList) :=
  Reader.read_eq_ok_iff.mpr ⟨["EOF:".toList], _, tokenize_message error,
    .symbol (by decide) (by decide) (by decide)⟩

theorem reply_message (error : ReadError) : reply error.message = "EOF:".toList :=
  reply_of_ok (read_message error)

theorem reply_eof : reply "EOF:".toList = "EOF:".toList := by rfl

/-! ## 2. What is read from a written form -/

/-- What is read from a reply to a form is read from the next reply as well. -/
theorem read_reply_reply (hv : read s = .ok v) (hw : read (reply s) = .ok w) :
    read (reply (reply s)) = .ok w := by
  have hdisplay := hw
  rw [reply_of_ok hv] at hdisplay
  obtain ⟨hbuilt, hcanonical⟩ :=
    Value.canonical_of_read_written (allReadable_of_read hv).wellSpelt hdisplay
  rw [reply_of_ok hw]
  exact Value.read_display_of_canonical hbuilt hcanonical

/-! ## 3. Replies to replies -/

theorem reply_reply_of_ok (hv : read s = .ok v) (hw : read (reply s) = .ok w) :
    reply (reply (reply s)) = reply (reply s) := by
  rw [reply_of_ok (read_reply_reply hv hw), reply_of_ok hw]

/-- Two replies after a text that is not read stands the first word of its message. -/
theorem reply_reply_of_error {error : ReadError} (h : read s = .error error) :
    reply (reply s) = "EOF:".toList := by
  rw [reply_of_error h, reply_message]

/-- Replies to replies have settled after three of them, whatever the text.  If the text and the
reply to it are read, they have after two, and the second reply is read as the first. -/
theorem reply_settles :
    (∀ s : Text, reply (reply (reply (reply s))) = reply (reply (reply s))) ∧
    ∀ (s : Text) (v w : Value), read s = .ok v → read (reply s) = .ok w →
      reply (reply (reply s)) = reply (reply s) ∧ read (reply (reply s)) = .ok w := by
  refine ⟨fun s => ?_, fun s v w hv hw => ⟨reply_reply_of_ok hv hw, read_reply_reply hv hw⟩⟩
  cases hs : read s with
  | error error =>
    rw [reply_reply_of_error hs, reply_eof, reply_eof]
  | ok v =>
    cases hreply : read (reply s) with
    | error error => rw [reply_reply_of_error hreply, reply_eof]
    | ok w => exact congrArg reply (reply_reply_of_ok hs hreply)

/-- The replies after `')` are `(quote ))` and then `(quote)`, which stays. -/
theorem reply_settles_quoted_closer :
    read ['\x27', ')'] = .ok (.call Sigil.quote.name [.symbol [')']]) ∧
      read (reply ['\x27', ')']) = .ok (.call Sigil.quote.name []) ∧
      reply (reply ['\x27', ')']) = "(quote)".toList ∧
      reply (reply (reply ['\x27', ')'])) = reply (reply ['\x27', ')']) ∧
      read (reply (reply ['\x27', ')'])) = .ok (.call Sigil.quote.name []) := by
  have hmarked : read ['\x27', ')'] = .ok (.call Sigil.quote.name [.symbol [')']]) := by rfl
  have hempty : read (reply ['\x27', ')']) = .ok (.call Sigil.quote.name []) := by rfl
  exact ⟨hmarked, hempty, by rfl, reply_settles.2 _ _ _ hmarked hempty⟩

end LispForms.Session
