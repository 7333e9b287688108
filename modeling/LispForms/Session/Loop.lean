import LispForms.Session.Fault
import LispForms.Session.Line
import LispForms.Session.Reply

/-!
# Loop — one form a line, results and errors apart

Each line that is not blank leaves one record: the written form of its first form on the output, or
the error on the errors. A line that is not UTF-8 ends the loop, and so does a record that one of
the two has no room for; what there is room for stays written.
-/

namespace LispForms.Session

inductive Channel where
  | output
  | errors
  deriving DecidableEq, Repr

structure Record where
  channel : Channel
  text : Text
  deriving DecidableEq, Repr

namespace Record

def bytes (record : Record) : Bytes := Text.encode (record.text ++ ['\n'])

def ofLine? (line : Text) : Option Record :=
  if isBlank line then none
  else
    match evaluated line with
    | .ok written => some ⟨.output, written⟩
    | .error error => some ⟨.errors, error.message⟩

end Record

/-- What a loop has to write, and what ends it if not the end of its input. -/
structure Transcript where
  records : List Record
  fault : Option Fault
  deriving DecidableEq

def Transcript.ofLines : List Bytes → Transcript
  | [] => ⟨[], none⟩
  | line :: rest =>
    match Text.decode? line with
    | none => ⟨[], some .notUtf8⟩
    | some text =>
      let later := ofLines rest
      { later with records := (Record.ofLine? text).toList ++ later.records }

/-- The bytes that each channel has room for, where that is limited. -/
structure Room where
  output : Option Nat
  errors : Option Nat
  deriving DecidableEq

namespace Room

def of (room : Room) : Channel → Option Nat
  | .output => room.output
  | .errors => room.errors

def allows (room : Room) (channel : Channel) (count : Nat) : Bool :=
  match room.of channel with
  | none => true
  | some left => count ≤ left

def cut (room : Room) (channel : Channel) (bytes : Bytes) : Bytes :=
  match room.of channel with
  | none => bytes
  | some left => bytes.take left

def spend (room : Room) (channel : Channel) (count : Nat) : Room :=
  match channel with
  | .output => { room with output := room.output.map (· - count) }
  | .errors => { room with errors := room.errors.map (· - count) }

end Room

structure Outcome where
  output : Bytes
  errors : Bytes
  fault : Option Fault
  deriving DecidableEq

/-- The outcome with bytes written to a channel beforehand. -/
def Outcome.after (outcome : Outcome) (channel : Channel) (bytes : Bytes) : Outcome :=
  match channel with
  | .output => { outcome with output := bytes ++ outcome.output }
  | .errors => { outcome with errors := bytes ++ outcome.errors }

/-- Writes the records one after another, up to the first that there is no room for. -/
def deliver (fault : Option Fault) : Room → List Record → Outcome
  | _, [] => ⟨[], [], fault⟩
  | room, record :: rest =>
    let bytes := record.bytes
    if room.allows record.channel bytes.length then
      (deliver fault (room.spend record.channel bytes.length) rest).after record.channel bytes
    -- What there is room for is written all the same.
    else
      Outcome.after ⟨[], [], some .sinkFull⟩ record.channel (room.cut record.channel bytes)

def loop (room : Room) (input : Bytes) : Outcome :=
  let transcript := Transcript.ofLines (lines input)
  deliver transcript.fault room transcript.records

end LispForms.Session
