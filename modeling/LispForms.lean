import LispForms.Text.Basic
import LispForms.Text.Utf8
import LispForms.Text.Quotes
import LispForms.Text.Unprintable
import LispForms.Text.Quoted
import LispForms.Numeral
import LispForms.Token.Basic
import LispForms.Token.Scanner
import LispForms.Value.Basic
import LispForms.Value.Atom
import LispForms.Value.Display
import LispForms.Value.Inspect
import LispForms.Mapping
import LispForms.ReadError
import LispForms.Reader
import LispForms.Cursor
import LispForms.Graph.Basic
import LispForms.Graph.Dot
import LispForms.Session.Fault
import LispForms.Session.Line
import LispForms.Session.Reply
import LispForms.Session.Loop
import LispForms.Session.Command
import LispForms.Main
import LispForms.Proofs.Token.Lexeme
import LispForms.Proofs.Token.Cut
import LispForms.Proofs.Value.Tree
import LispForms.Proofs.Mapping.Order
import LispForms.Proofs.Reader.Grammar
import LispForms.Proofs.Reader.Run
import LispForms.Proofs.Reader.Acceptance
import LispForms.Proofs.Token.Literal
import LispForms.Proofs.Value.Spelling
import LispForms.Proofs.Reader.Shape
import LispForms.Proofs.Reader.Part
import LispForms.Proofs.RoundTrip
import LispForms.Proofs.Value.Distinct
import LispForms.Proofs.Session.Reply
import LispForms.Proofs.Reader.Prefix
import LispForms.Proofs.Token.Split
import LispForms.Proofs.Session.Complete
import LispForms.Proofs.Text.Utf8
import LispForms.Proofs.Session.Line
import LispForms.Proofs.Session.Dialogue
import LispForms.Proofs.Reader.OpenString
import LispForms.Proofs.Session.Terminator
import LispForms.Proofs.Session.Loop
import LispForms.Proofs.Session.Listing
import LispForms.Proofs.Reader.Depth
import LispForms.Proofs.Reader.Descent
import LispForms.Proofs.Reader.Discipline
import LispForms.Proofs.Session.OneLine
import LispForms.Proofs.Session.Entries
import LispForms.Proofs.Session.Room
import LispForms.Proofs.Text.Delimited
import LispForms.Proofs.Text.Quoted
import LispForms.Proofs.Text.ByteOrder
import LispForms.Proofs.Value.Inspected
import LispForms.Proofs.Value.Address
import LispForms.Proofs.Graph.Dot
import LispForms.Proofs.Graph.Distinct
import LispForms.Proofs.Graph.Preorder
import LispForms.Proofs.Graph.Walk
import LispForms.Proofs.Mapping.Filing
import LispForms.Proofs.Reader.Row
import LispForms.Proofs.Reader.Place
import LispForms.Proofs.Reader.Standing
import LispForms.Proofs.Reader.Blame
import LispForms.Proofs.Reader.Completion
import LispForms.Proofs.Mapping.Reordering
import LispForms.Proofs.Mapping.Store
import LispForms.Proofs.Reader.Braces
import LispForms.Proofs.Session.Settled
import LispForms.Proofs.Token.Pair
import LispForms.Proofs.Reader.Literal
import LispForms.Proofs.Session.Severed
import LispForms.Proofs.Session.Balance
import LispForms.Proofs.Session.Surroundings
import LispForms.Proofs.Session.Rejection
import LispForms.Proofs.Value.Numeral
import LispForms.Proofs.Graph.Label
