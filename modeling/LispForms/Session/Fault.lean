import LispForms.ReadError

/-!
# Faults — what stops a session

Input that is not UTF-8, a sink that takes no more, and, where a session does not go on after it, a
form that does not read.
-/

namespace LispForms.Session

inductive Fault where
  | notUtf8
  | sinkFull
  | unreadable (error : ReadError)
  deriving DecidableEq, Repr

namespace Fault

def kind : Fault → Text
  | .notUtf8 => "InvalidData".toList
  | .sinkFull => "StorageFull".toList
  | .unreadable _ => "UnexpectedEof".toList

def message : Fault → Text
  | .notUtf8 => "stream did not contain valid UTF-8".toList
  | .sinkFull => "limit reached".toList
  | .unreadable error => error.detail

def fields (name field : Text) (fault : Fault) : Text :=
  name ++ " \x7b kind: ".toList ++ fault.kind ++ [',', ' '] ++ field ++ [':', ' ']
    ++ Text.quoted fault.message ++ " \x7d".toList

def inspect : Fault → Text
  | .unreadable error => fields "Custom".toList "error".toList (.unreadable error)
  | .notUtf8 => fields "Error".toList "message".toList .notUtf8
  | .sinkFull => fields "Error".toList "message".toList .sinkFull

end Fault

end LispForms.Session
