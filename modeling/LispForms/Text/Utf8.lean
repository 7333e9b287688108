import LispForms.Text.Basic

/-!
# UTF-8 — from bytes to text and back

Decoding accepts well-formed UTF-8 only: no truncated or overlong sequence, no surrogate, nothing
above U+10FFFF.
-/

namespace LispForms.Text

def decode? (bytes : Bytes) : Option Text :=
  (String.fromUTF8? ⟨bytes.toArray⟩).map String.toList

def encode (text : Text) : Bytes := text.flatMap String.utf8EncodeChar

end LispForms.Text
