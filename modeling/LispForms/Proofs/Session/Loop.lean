import LispForms.Session.Loop

/-!
# Loop — what is written where there is room for everything

A loop whose channels are not limited writes to each the records that go there, in order.
-/

namespace LispForms.Session

def Room.unlimited : Room := ⟨none, none⟩

def written (channel : Channel) (records : List Record) : Bytes :=
  (records.filter (·.channel = channel)).flatMap Record.bytes

variable {channel : Channel}

/-! ## 1. Records -/

@[simp] theorem written_nil (channel : Channel) : written channel [] = [] := rfl

@[simp] theorem written_append (channel : Channel) (records more : List Record) :
    written channel (records ++ more) = written channel records ++ written channel more := by
  simp [written]

theorem written_cons (channel : Channel) (text : Text) (records : List Record) :
    written channel (⟨channel, text⟩ :: records)
      = Record.bytes ⟨channel, text⟩ ++ written channel records := by
  simp [written]

theorem written_cons_of_ne {other : Channel} (h : other ≠ channel) (text : Text)
    (records : List Record) :
    written channel (⟨other, text⟩ :: records) = written channel records := by
  simp [written, h]

theorem Record.bytes_ne_nil (record : Record) : record.bytes ≠ [] := by
  simp [Record.bytes, Text.encode, String.utf8EncodeChar_ne_nil]

/-! ## 2. Delivery without limits -/

@[simp] theorem Room.allows_unlimited (channel : Channel) (count : Nat) :
    Room.unlimited.allows channel count = true := by
  cases channel <;> rfl

@[simp] theorem Room.spend_unlimited (channel : Channel) (count : Nat) :
    Room.unlimited.spend channel count = .unlimited := by
  cases channel <;> rfl

theorem deliver_unlimited (fault : Option Fault) (records : List Record) :
    deliver fault .unlimited records
      = ⟨written .output records, written .errors records, fault⟩ := by
  induction records with
  | nil => rfl
  | cons record records ih =>
    obtain ⟨channel, text⟩ := record
    rw [deliver, if_pos (Room.allows_unlimited _ _), Room.spend_unlimited, ih]
    cases channel with
    | output =>
      rw [written_cons, written_cons_of_ne (by decide)]
      rfl
    | errors =>
      rw [written_cons, written_cons_of_ne (by decide)]
      rfl

theorem loop_unlimited (input : Bytes) :
    loop .unlimited input
      = ⟨written .output (Transcript.ofLines (lines input)).records,
          written .errors (Transcript.ofLines (lines input)).records,
          (Transcript.ofLines (lines input)).fault⟩ :=
  deliver_unlimited _ _

end LispForms.Session
